import DocQuery.Value.Order

/-!
# Comparison operators

The six comparisons that query documents and expressions share, by the names they have there. Two
values stand in a comparison by equality of queries, or by the order across all kinds of values.
-/

namespace DocQuery

/-- Whether a name is reserved for operators. -/
def isOperator (name : String) : Bool := name.toList.head? == some '$'

/-- A comparison of two values. -/
inductive Comparison where
  | equal
  | notEqual
  | greater
  | greaterOrEqual
  | less
  | lessOrEqual
deriving DecidableEq

namespace Comparison

/-- The operator of a comparison. -/
def name : Comparison → String
  | .equal => "$eq"
  | .notEqual => "$ne"
  | .greater => "$gt"
  | .greaterOrEqual => "$gte"
  | .less => "$lt"
  | .lessOrEqual => "$lte"

/-- The comparison of an operator. -/
def ofName? (operator : String) : Option Comparison :=
  match operator with
  | "$eq" => some .equal
  | "$ne" => some .notEqual
  | "$gt" => some .greater
  | "$gte" => some .greaterOrEqual
  | "$lt" => some .less
  | "$lte" => some .lessOrEqual
  | _ => none

@[simp] theorem ofName?_name (c : Comparison) : ofName? c.name = some c := by
  cases c <;> rfl

/-- Whether values that compare in this way stand in the comparison. -/
def accepts : Comparison → Ordering → Bool
  | .equal, o => o == .eq
  | .notEqual, o => o != .eq
  | .greater, o => o == .gt
  | .greaterOrEqual, o => o != .lt
  | .less, o => o == .lt
  | .lessOrEqual, o => o != .gt

/-- Whether two values stand in the comparison. -/
def holds (c : Comparison) (v w : Value) : Bool :=
  match c with
  | .equal => v.equal w
  | .notEqual => !v.equal w
  | c => c.accepts (Value.order (some v) (some w))

end Comparison

end DocQuery
