import DocQuery.Expression
import DocQuery.Patterns

/-!
# Matching documents

`Document.satisfies` decides whether a document satisfies a query document. The entries of a query
document are conditions on paths, or clauses that combine query documents; they are tried in order
and the first that does not hold, or cannot be decided, settles the outcome. A condition is tried
against the value at its path and, if that is an array, against each element as well. Patterns are
matched by the engine at hand.
-/

namespace DocQuery

namespace Value

/-- The values that a condition is tried against: the elements of an array, and the value. -/
def subjects : Option Value → List Value
  | none => []
  | some (.array items) => items ++ [.array items]
  | some v => [v]

/-- Whether a value, or an element of it, is equal to another; an absent value counts as null. -/
def equals (value : Option Value) (expected : Value) : Bool :=
  match value with
  | none => decide (expected = .null)
  | some v => (subjects (some v)).any (·.equal expected)

/-- Whether a text, or an element that is a text, passes a test. -/
def hasText (value : Option Value) (test : String → Bool) : Bool :=
  (subjects value).any fun
    | .string s => test s
    | _ => false

end Value

/-- Whether a value stands in a comparison to another; subjects that do not compare with it do
not stand in any order to it. -/
def Comparison.test (c : Comparison) (value : Option Value) (expected : Value) : Bool :=
  match c with
  | .equal => Value.equals value expected
  | .notEqual => !Value.equals value expected
  | c => (Value.subjects value).any fun v => (v.compare? expected).any c.accepts

/-- The search for a pattern under options, of which `i`, `m`, `s` and `x` count: how to tell
whether a text contains a match. -/
def RegexEngine.compile [RegexEngine] (pattern options : String) :
    Except StoreError (String → Bool) :=
  let flags := options.toList.filter fun c => c = 'i' ∨ c = 'm' ∨ c = 's' ∨ c = 'x'
  let source :=
    if flags.isEmpty then pattern else "(?" ++ String.ofList flags ++ ")" ++ pattern
  (RegexEngine.read source).mapError fun _ => .invalidRegex

/-- An operator that tests a value against its operand. -/
inductive ConditionOperator where
  | comparison (c : Comparison)
  /-- Equal to one item of a list, or to none when inverted. -/
  | member (inverse : Bool)
  /-- Containing a match of a pattern. -/
  | containing
  /-- Present, or absent when the operand does not count as true. -/
  | presence
deriving DecidableEq

namespace ConditionOperator

/-- The operator that stands beside a pattern and carries its options. -/
def optionsName : String := "$options"

/-- The operator that negates the condition it is applied to. -/
def negationName : String := "$not"

/-- The operator of a name. -/
def ofName? (name : String) : Option ConditionOperator :=
  match name with
  | "$in" => some (.member false)
  | "$nin" => some (.member true)
  | "$regex" => some .containing
  | "$exists" => some .presence
  | name => (Comparison.ofName? name).map .comparison

/-- The pattern and the options of an operand; the operators beside it may add options. -/
def patternOf? (operand : Value) (siblings : Document) : Option (String × String) :=
  let extra :=
    match siblings.value? optionsName with
    | some (.string s) => s
    | _ => ""
  match operand with
  | .string pattern => some (pattern, extra)
  | .atom (.regex pattern options) => some (pattern, options ++ extra)
  | _ => none

/-- Whether a value passes the test of an operator, which stands under its name among others. -/
def test [RegexEngine] (o : ConditionOperator) (name : String) (value : Option Value)
    (operand : Value) (siblings : Document) : Except StoreError Bool :=
  match o with
  | .comparison c => .ok (c.test value operand)
  | .member inverse =>
    match operand with
    | .array items => .ok (items.any (Value.equals value) != inverse)
    | _ => .error (.invalidOperand name)
  | .containing =>
    match patternOf? operand siblings with
    | none => .error (.invalidOperand name)
    | some (pattern, options) => do
      let test ← RegexEngine.compile pattern options
      pure (Value.hasText value test)
  | .presence => .ok (value.isSome == operand.countsAsTrue)

end ConditionOperator

/-- Whether a document lists operators, as its first key shows. -/
def Document.listsOperators (d : Document) : Bool := d.keys.head?.any isOperator

namespace Value

mutual

/-- Whether a value satisfies a condition: operators, a pattern, or a value to be equal to. -/
def satisfies [RegexEngine] (value : Option Value) : Value → Except StoreError Bool
  | .document operators =>
    if Document.listsOperators operators then passes value operators operators
    else .ok (equals value (.document operators))
  | .atom (.regex pattern options) => do
    let test ← RegexEngine.compile pattern options
    pure (hasText value test)
  | expected => .ok (equals value expected)

/-- Whether a value passes the tests of several operators, which stand among others. -/
def passes [RegexEngine] (value : Option Value) (siblings : Document) :
    List (String × Value) → Except StoreError Bool
  | [] => .ok true
  | (name, operand) :: rest =>
    if name = ConditionOperator.optionsName then passes value siblings rest
    else do
      let passed ←
        if name = ConditionOperator.negationName then do
          let b ← satisfies value operand
          pure !b
        else
          match ConditionOperator.ofName? name with
          | some o => o.test name value operand siblings
          | none => .error (.unknownOperator name)
      if passed then passes value siblings rest else pure false

end

end Value

/-- A clause of a query document that is no condition on a path. -/
inductive Clause where
  /-- All of a list of query documents. -/
  | all
  /-- One of a list of query documents, or none of it when inverted. -/
  | any (inverse : Bool)
  /-- An expression that counts as true. -/
  | expression
deriving DecidableEq

/-- The clause of a name. -/
def Clause.ofName? (name : String) : Option Clause :=
  match name with
  | "$and" => some .all
  | "$or" => some (.any false)
  | "$nor" => some (.any true)
  | "$expr" => some .expression
  | _ => none

namespace Document

variable [RegexEngine]

mutual

/-- Whether a document satisfies a member of a clause. What is no query document is satisfied by
none; a clause with such a member is refused before its members are tried. -/
def satisfiesMember (d : Document) : Value → Except StoreError Bool
  | .document query => satisfies d query
  | _ => .ok false

/-- Whether a document satisfies every entry of a query document. -/
def satisfies (d : Document) : (query : List (String × Value)) → Except StoreError Bool
  | [] => .ok true
  | (key, condition) :: rest => do
    let holds ←
      if isOperator key then
        match Clause.ofName? key with
        | none => .error (.unknownOperator key)
        | some .expression => do
          let v ← condition.evaluate d
          pure v.countsAsTrue
        | some .all =>
          match condition with
          | .array items =>
            if items.all Value.isDocument then satisfiesAll d items
            else .error (.invalidOperand key)
          | _ => .error (.invalidOperand key)
        | some (.any inverse) =>
          match condition with
          | .array items =>
            if items.all Value.isDocument then do
              let b ← satisfiesAny d items
              pure (b != inverse)
            else .error (.invalidOperand key)
          | _ => .error (.invalidOperand key)
      else Value.satisfies (d.read? key) condition
    if holds then satisfies d rest else pure false

/-- Whether a document satisfies all members of a clause. -/
def satisfiesAll (d : Document) : List Value → Except StoreError Bool
  | [] => .ok true
  | query :: queries => do
    let b ← satisfiesMember d query
    if b then satisfiesAll d queries else pure false

/-- Whether a document satisfies one member of a clause. -/
def satisfiesAny (d : Document) : List Value → Except StoreError Bool
  | [] => .ok false
  | query :: queries => do
    let b ← satisfiesMember d query
    if b then pure true else satisfiesAny d queries

end

/-- The documents that satisfy a query document; the first that cannot be decided decides the
error. -/
def selectFrom (query : Document) : List Document → Except StoreError (List Document)
  | [] => .ok []
  | d :: ds => do
    let b ← satisfies d query
    let rest ← selectFrom query ds
    pure (if b then d :: rest else rest)

end Document

end DocQuery
