import DocQuery.Field

/-!
# Sorts

A query's sorts, and the ordered sort keys they compile to. A sort document lists the keys once
each, so a key that is sorted by twice keeps its first place with its last direction.
-/

namespace DocQuery

/-- The two directions that a store knows. -/
inductive Direction where
  | ascending
  | descending
deriving DecidableEq

namespace Direction

/-- The number that stands for a direction in sort and index documents. -/
def toValue : Direction → Value
  | .ascending => .int32 1
  | .descending => .int32 (-1)

/-- The direction that a value stands for: `1` or `-1` in an integer of either width. -/
def ofValue? : Value → Option Direction
  | .int32 n => if n = 1 then some .ascending else if n = -1 then some .descending else none
  | .int64 n => if n = 1 then some .ascending else if n = -1 then some .descending else none
  | _ => none

/-- Reading back what was written. -/
@[simp] theorem ofValue?_toValue (o : Direction) : ofValue? o.toValue = some o := by
  cases o <;> rfl

end Direction

/-- The direction of a sort. -/
inductive SortDirection where
  | ascending
  | descending
  /-- A direction given as a value; it must be one that a store knows. -/
  | custom (v : Value)

/-- One sort of a query. -/
inductive SortBy where
  | field (f : Field) (direction : SortDirection)
  /-- A sort meant for some other backend. -/
  | custom (text : String)

/-- Sort keys with their directions, the most significant first. -/
abbrev SortKeys := List (String × Direction)

/-- The sort document of sort keys. -/
def SortKeys.toDocument (keys : SortKeys) : Document :=
  keys.foldl (fun d key => d.put key.1 key.2.toValue) []

/-- The direction that a store is asked for. -/
def SortDirection.resolve : SortDirection → Except Error Direction
  | .ascending => .ok .ascending
  | .descending => .ok .descending
  | .custom v =>
    match Direction.ofValue? v with
    | some o => .ok o
    | none => .error .unsupportedCustomSort

namespace SortBy

def ascending (f : Field) : SortBy := .field f .ascending
def descending (f : Field) : SortBy := .field f .descending

/-- The sort keys of a list of sorts. -/
def keys (mode : Addressing) : List SortBy → Except Error SortKeys
  | [] => .ok []
  | .field f direction :: rest => do
    let path ← f.resolve mode
    let order ← direction.resolve
    let others ← keys mode rest
    pure ((path, order) :: others)
  | .custom _ :: _ => .error .unsupportedCustomSort

/-- The sort keys of a query; no sorts at all yield none. -/
def compile (mode : Addressing) (sorts : List SortBy) : Except Error (Option SortKeys) := do
  let ks ← keys mode sorts
  pure (if ks.isEmpty then none else some ks)

end SortBy

end DocQuery
