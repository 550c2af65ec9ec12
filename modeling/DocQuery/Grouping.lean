import DocQuery.Expression
import DocQuery.Value.Text

/-!
# Groups of documents

Documents whose keys are equal form a group; groups stand in the order of their first members, and
members in the order of the documents. Each group becomes one document of its key and of what
accumulators make of its members.
-/

namespace DocQuery

/-- A reduction of many values to one. -/
inductive Accumulator where
  | sum
  | average
  | minimum
  | maximum
deriving DecidableEq

namespace Accumulator

/-- The name under which the members of a group are counted. -/
def countName : String := "$count"

/-- The accumulator of a name. -/
def ofName? (name : String) : Option Accumulator :=
  match name with
  | "$sum" => some .sum
  | "$avg" => some .average
  | "$min" => some .minimum
  | "$max" => some .maximum
  | _ => none

/-- The 64-bit integer closest to an integer. -/
def saturate (n : Int) : Int := max (-0x8000000000000000) (min n 0x7FFFFFFFFFFFFFFF)

/-- The doubles among values. -/
def doubles (vs : List Value) : List Double :=
  vs.filterMap fun
    | .double d => some d
    | _ => none

/-- The integers among values. -/
def integers (vs : List Value) : List Int :=
  vs.filterMap fun
    | .atom a => a.int?
    | _ => none

/-- The numbers among values, as doubles. -/
def numbers (vs : List Value) : List Double :=
  vs.filterMap fun
    | .atom a => a.double?
    | _ => none

/-- The sum of integers, kept within 64 bits at every step. -/
def integerSum (ns : List Int) : Int := ns.foldl (fun total n => saturate (total + n)) 0

/-- An integer of 64 bits in the narrowest width that holds it. -/
def narrowest (n : Int) : Value :=
  if -0x80000000 ≤ n ∧ n < 0x80000000 then .int32 (Int32.ofInt n)
  else .int64 (Int64.ofInt n)

/-- The sum of values; those that are no numbers count nothing. Doubles are added apart and in
order, and one of them makes the sum a double. -/
def sumOf (vs : List Value) : Value :=
  let total := integerSum (integers vs)
  match doubles vs with
  | [] => narrowest total
  | ds => .double ((ds.foldl Double.add .zero).add (.ofInt total))

/-- The mean of the numbers among values, null without any. -/
def averageOf (vs : List Value) : Value :=
  match numbers vs with
  | [] => .null
  | ds => .double ((ds.foldl Double.add .negZero).div (.ofInt ds.length))

/-- Whether a value is neither null nor undefined. -/
def isPresent : Value → Bool
  | .null => false
  | .atom .undefined => false
  | _ => true

/-- The first of the least values. -/
def least? : List Value → Option Value
  | [] => none
  | v :: vs =>
    some (vs.foldl (fun m w => if Value.order (some m) (some w) == .gt then w else m) v)

/-- The last of the greatest values. -/
def greatest? : List Value → Option Value
  | [] => none
  | v :: vs =>
    some (vs.foldl (fun m w => if Value.order (some m) (some w) == .gt then m else w) v)

/-- What an accumulator makes of values. -/
def apply : Accumulator → List Value → Value
  | .sum, vs => sumOf vs
  | .average, vs => averageOf vs
  | .minimum, vs => (least? (vs.filter isPresent)).getD .null
  | .maximum, vs => (greatest? (vs.filter isPresent)).getD .null

end Accumulator

namespace Document

/-- The values of an expression over several documents. -/
def evaluateEach (expression : Value) : List Document → Except StoreError (List Value)
  | [] => .ok []
  | d :: ds => do
    let v ← expression.evaluate d
    let vs ← evaluateEach expression ds
    pure (v :: vs)

/-- What an accumulation makes of the members of a group. -/
def accumulate (accumulation : Document) (members : List Document) : Except StoreError Value :=
  match accumulation with
  | [(name, expression)] =>
    if name = Accumulator.countName then .ok (.int64 (Int64.ofNat members.length))
    else do
      let vs ← evaluateEach expression members
      match Accumulator.ofName? name with
      | some a => pure (a.apply vs)
      | none => .error (.unknownOperator name)
  | _ => .error (.invalidOperand accumulation.text)

end Document

/-- Documents under a common key. -/
structure Group where
  key : Value
  members : List Document

namespace Group

/-- Add a document to the first group of an equal key, or as a new last group. -/
def add (key : Value) (d : Document) : List Group → List Group
  | [] => [⟨key, [d]⟩]
  | g :: gs =>
    if g.key.equal key then { g with members := g.members ++ [d] } :: gs else g :: add key d gs

/-- The groups of documents by the value of an expression, after those already formed. -/
def collect (expression : Value) (groups : List Group) :
    List Document → Except StoreError (List Group)
  | [] => .ok groups
  | d :: ds => do
    let key ← expression.evaluate d
    collect expression (add key d groups) ds

/-- Write what the accumulations of a specification make of a group's members. -/
def report (members : List Document) :
    (spec : List (String × Value)) → Document → Except StoreError Document
  | [], output => .ok output
  | (name, accumulation) :: spec, output =>
    if name = idKey then report members spec output
    else
      match accumulation with
      | .document accumulation => do
        let v ← Document.accumulate accumulation members
        report members spec (output.put name v)
      | _ => .error (.invalidOperand name)

/-- The document of a group. -/
def toDocument (spec : Document) (g : Group) : Except StoreError Document :=
  report g.members spec [(idKey, g.key)]

/-- The documents of several groups. -/
def toDocuments (spec : Document) : List Group → Except StoreError (List Document)
  | [] => .ok []
  | g :: gs => do
    let d ← g.toDocument spec
    let ds ← toDocuments spec gs
    pure (d :: ds)

end Group

/-- The documents of the groups that a specification forms. -/
def Document.groupBy (spec : Document) (ds : List Document) :
    Except StoreError (List Document) := do
  let groups ← Group.collect ((spec.value? idKey).getD .null) [] ds
  Group.toDocuments spec groups

end DocQuery
