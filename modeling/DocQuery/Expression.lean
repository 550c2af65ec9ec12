import DocQuery.Comparison
import DocQuery.Error
import DocQuery.Value.Path

/-!
# Expressions

An expression is a value to be computed from a document. A text that starts with a dollar sign
reads a path of the document, and `$$ROOT` the document itself; a document of one entry under an
operator applies the operator; other documents and arrays are computed part by part, and all other
values stand for themselves. What a path does not reach is null.
-/

namespace DocQuery

/-- An operator of expressions that works on the values of its operands. -/
inductive ValueOperator where
  | comparison (c : Comparison)
  /-- All operands count as true. -/
  | all
  /-- Some operand counts as true. -/
  | any
  /-- The operand does not count as true. -/
  | not
deriving DecidableEq

/-- An operator of expressions. -/
inductive ExpressionOperator where
  | ofValues (o : ValueOperator)
  /-- The operand as it is written. -/
  | quote
deriving DecidableEq

namespace ExpressionOperator

/-- The operator of a name. -/
def ofName? (name : String) : Option ExpressionOperator :=
  match name with
  | "$and" => some (.ofValues .all)
  | "$or" => some (.ofValues .any)
  | "$not" => some (.ofValues .not)
  | "$literal" => some .quote
  | name => (Comparison.ofName? name).map fun c => .ofValues (.comparison c)

end ExpressionOperator

/-- The result of an operator on its operands; `none` where there are too few or too many. -/
def ValueOperator.apply? (o : ValueOperator) (operands : List Value) : Option Bool :=
  match o, operands with
  | .comparison c, [v, w] => some (c.holds v w)
  | .comparison _, _ => none
  | .all, vs => some (vs.all Value.countsAsTrue)
  | .any, vs => some (vs.any Value.countsAsTrue)
  | .not, [v] => some !v.countsAsTrue
  | .not, _ => none

/-- The value of a text: a path of the document, the document itself, or the text. -/
def Document.evaluateText (d : Document) (s : String) : Except StoreError Value :=
  match s.toList with
  | '$' :: '$' :: known =>
    if known = ['R', 'O', 'O', 'T'] then .ok (.document d) else .error (.unknownOperator s)
  | '$' :: path => .ok ((d.read? (String.ofList path)).getD .null)
  | _ => .ok (.string s)

namespace Value

mutual

/-- The value of an expression over a document. -/
def evaluate (d : Document) : Value → Except StoreError Value
  | .atom (.string s) => d.evaluateText s
  | .atom a => .ok (.atom a)
  | .array items => do
    let vs ← evaluateItems d items
    pure (.array vs)
  | .document [(name, operand)] =>
    if isOperator name then
      match ExpressionOperator.ofName? name with
      | none => .error (.unknownOperator name)
      | some .quote => .ok operand
      | some (.ofValues o) => do
        let operands ←
          match operand with
          | .array items => evaluateItems d items
          | v => do
            let w ← evaluate d v
            pure [w]
        match o.apply? operands with
        | some b => pure (.bool b)
        | none => .error (.invalidOperand name)
    else do
      let v ← evaluate d operand
      pure (.document [(name, v)])
  | .document entries => do
    let e ← evaluateEntries d entries
    pure (.document e)

/-- The values of several expressions. -/
def evaluateItems (d : Document) : List Value → Except StoreError (List Value)
  | [] => .ok []
  | v :: vs => do
    let w ← evaluate d v
    let ws ← evaluateItems d vs
    pure (w :: ws)

/-- The entries of a document with the values of their expressions. -/
def evaluateEntries (d : Document) : List (String × Value) → Except StoreError Document
  | [] => .ok []
  | (k, v) :: es => do
    let w ← evaluate d v
    let e ← evaluateEntries d es
    pure ((k, w) :: e)

end

end Value

end DocQuery
