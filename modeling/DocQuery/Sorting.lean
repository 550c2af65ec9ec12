import DocQuery.Error
import DocQuery.Sort
import DocQuery.StableSort
import DocQuery.Value.Order
import DocQuery.Value.Path

/-!
# Sorting documents

A sort document lists paths with their directions. Documents are ordered by the values at the
first path, then, where these are level, at the next; absent values rank with null. The sort is
stable in both directions.
-/

namespace DocQuery

/-- An order as a direction sees it. -/
def Direction.orient : Direction → Ordering → Ordering
  | .ascending, o => o
  | .descending, o => o.swap

namespace SortKeys

/-- The sort keys of a sort document. -/
def ofDocument : Document → Except StoreError SortKeys
  | [] => .ok []
  | (path, v) :: spec =>
    match Direction.ofValue? v with
    | none => .error (.invalidOperand "$sort")
    | some direction => do
      let keys ← ofDocument spec
      pure ((path, direction) :: keys)

/-- How two documents compare by sort keys. -/
def compare : SortKeys → Document → Document → Ordering
  | [], _, _ => .eq
  | (path, direction) :: keys, d, e =>
    (direction.orient (Value.order (d.read? path) (e.read? path))).then (compare keys d e)

/-- Sort documents. -/
def sort (keys : SortKeys) (ds : List Document) : List Document :=
  StableSort.sort (fun d e => keys.compare d e == .lt) ds

end SortKeys

/-- Sort documents by a sort document. -/
def Document.sortBy (spec : Document) (ds : List Document) : Except StoreError (List Document) := do
  let keys ← SortKeys.ofDocument spec
  pure (keys.sort ds)

end DocQuery
