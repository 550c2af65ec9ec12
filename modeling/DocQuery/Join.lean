import DocQuery.Filter
import DocQuery.SortedMap

/-!
# Joins

A join attaches documents of a foreign collection to a row. Only joins on the equality of one
foreign and one local field can be run; `Join.lookup` brings a join into that form, resolving both
fields. The joined documents stand in the row under the join's key: its alias, or the name of the
foreign collection.
-/

namespace DocQuery

/-- What happens to a row without a match. -/
inductive JoinKind where
  /-- It is dropped; a row with several matches is repeated for each. -/
  | inner
  /-- It is kept. -/
  | left
  | custom (name : String)
deriving DecidableEq

/-- A join against a foreign collection. -/
inductive Join where
  /-- A foreign field equals a local one. -/
  | equality (schema : String) (alias? : Option String) (kind : JoinKind)
      (foreignField localField : Field)
  /-- Arbitrary conditions, of which one equality of two fields can be run. -/
  | advanced (schema : String) (alias? : Option String) (kind : JoinKind)
      (conditions : List Filter)
  /-- A join meant for some other backend. -/
  | custom (text : String)

/-- A join on the equality of two fields. -/
structure Link where
  schema : String
  key : String
  kind : JoinKind
  foreignField : Field
  localField : Field

/-- A join ready to run: where its documents come from and go to, and the paths that must agree. -/
structure Lookup where
  schema : String
  key : String
  localPath : String
  foreignPath : String
  /-- Whether rows without a match are dropped. -/
  required : Bool
deriving DecidableEq

/-- Where the documents of a join stand in a row. -/
structure RowPart where
  /-- The collection they come from. -/
  schema : String
  /-- The key of the row that holds them. -/
  key : String
deriving DecidableEq

/-- Where the documents of the joins of a row stand, sorted by key. -/
abbrev RowLayout := List (String × RowPart)

namespace Join

def inner (schema : String) (foreignField localField : Field) : Join :=
  .equality schema none .inner foreignField localField

def left (schema : String) (foreignField localField : Field) : Join :=
  .equality schema none .left foreignField localField

/-- The join under another key; a join of some other backend has none. -/
def withAlias (name : String) : Join → Join
  | .equality schema _ kind foreignField localField =>
    .equality schema (some name) kind foreignField localField
  | .advanced schema _ kind conditions => .advanced schema (some name) kind conditions
  | .custom text => .custom text

/-- The foreign and the local field among two that must be equal: the foreign one is owned by the
join's key, the left one if both are. -/
def orient (key : String) (lhs rhs : Field) : Except Error (Field × Field) :=
  if lhs.schema? = some key then .ok (lhs, rhs)
  else if rhs.schema? = some key then .ok (rhs, lhs)
  else .error .unsupportedJoin

/-- The join as a link between two fields. -/
def link : Join → Except Error Link
  | .equality schema alias? kind foreignField localField =>
    .ok ⟨schema, alias?.getD schema, kind, foreignField, localField⟩
  | .advanced schema alias? kind [.fields lhs (.equality false) rhs] => do
    let (foreignField, localField) ← orient (alias?.getD schema) lhs rhs
    pure ⟨schema, alias?.getD schema, kind, foreignField, localField⟩
  | .advanced _ _ _ _ => .error .unsupportedJoin
  | .custom _ => .error .unsupportedJoin

/-- Whether a kind of join drops rows without a match. -/
def isRequired : JoinKind → Except Error Bool
  | .inner => .ok true
  | .left => .ok false
  | .custom _ => .error .unsupportedJoin

/-- The join with its fields resolved: the local one inside the row, the foreign one inside a
document of the foreign collection. -/
def lookup (j : Join) : Except Error Lookup := do
  let l ← j.link
  let required ← isRequired l.kind
  let localPath ← l.localField.qualifiedPath
  let foreignPath ← l.foreignField.plainPath
  pure ⟨l.schema, l.key, localPath, foreignPath, required⟩

/-- The joins of a query, in order. -/
def lookups : List Join → Except Error (List Lookup)
  | [] => .ok []
  | j :: js => do
    let l ← j.lookup
    let ls ← lookups js
    pure (l :: ls)

theorem lookups_eq_mapM (joins : List Join) : lookups joins = joins.mapM lookup :=
  eq_mapM_of_cons (g := lookups) rfl (fun _ _ => rfl) joins

end Join

/-- The layout of the rows of these joins; of two joins with one key the later counts. -/
def RowLayout.ofLookups (ls : List Lookup) : RowLayout :=
  SortedMap.ofList (ls.map fun l => (l.key, ⟨l.schema, l.key⟩))

end DocQuery
