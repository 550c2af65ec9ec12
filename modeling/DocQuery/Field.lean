import DocQuery.Error
import DocQuery.Value.Path

/-!
# Fields

A field names a place in the documents of a collection by keys. Resolution turns it into a dotted
path: plainly, as the path inside a document of its own collection, or qualified by the owning
collection, which is how fields are told apart once documents of several collections stand in one
row. The first key that has no name decides the error.
-/

namespace DocQuery

/-- A key as a model declares it. -/
inductive FieldKey where
  /-- The identity of the document. -/
  | id
  | name (s : String)
  /-- The place where aggregates report their value. -/
  | aggregate
  /-- A key whose name begins with the name of another. -/
  | prefixed (outer inner : FieldKey)
deriving DecidableEq, Inhabited

/-- A reference to a field of some collection. -/
inductive Field where
  /-- Keys into a document of a collection, or of the join of that name. -/
  | path (keys : List FieldKey) (schema : String)
  /-- The same, in a namespace of the database. -/
  | extended (keys : List FieldKey) (schema : String) (space : Option String)
  /-- An expression meant for some other backend. -/
  | custom (text : String)
deriving DecidableEq, Inhabited

/-- How the fields of a query are addressed. -/
inductive Addressing where
  /-- Inside a document of the field's own collection. -/
  | plain
  /-- Inside a row, through the owning collection. -/
  | qualified
deriving DecidableEq

namespace FieldKey

/-- The name of a key. -/
def resolve : FieldKey → Except Error String
  | .id => .ok idKey
  | .name s => .ok s
  | .aggregate => .error .unsupportedField
  | .prefixed outer inner => do
    let a ← outer.resolve
    let b ← inner.resolve
    pure (a ++ b)

/-- The names of several keys. -/
def resolveAll : List FieldKey → Except Error (List String)
  | [] => .ok []
  | k :: ks => do
    let name ← k.resolve
    let names ← resolveAll ks
    pure (name :: names)

theorem resolveAll_eq_mapM (keys : List FieldKey) : resolveAll keys = keys.mapM resolve :=
  eq_mapM_of_cons (g := resolveAll) rfl (fun _ _ => rfl) keys

end FieldKey

namespace Field

/-- A field with a single key. -/
def single (key : FieldKey) (schema : String) : Field := .path [key] schema

/-- The identity field of a collection. -/
def identity (schema : String) : Field := .path [.id] schema

/-- The owning collection, where the field names one. -/
def schema? : Field → Option String
  | .path _ schema => some schema
  | .extended _ schema _ => some schema
  | .custom _ => none

/-- The keys, where the field has any. -/
def keys? : Field → Option (List FieldKey)
  | .path keys _ => some keys
  | .extended keys _ _ => some keys
  | .custom _ => none

/-- The path inside a document of the field's own collection. -/
def plainPath (f : Field) : Except Error String :=
  match f.keys? with
  | some keys => do
    let names ← FieldKey.resolveAll keys
    pure (Path.ofKeys names)
  | none => .error .unsupportedField

/-- The path inside a row, qualified by the owning collection. A namespace cannot be qualified. -/
def qualifiedPath (f : Field) : Except Error String :=
  match f with
  | .path keys schema => do
    let names ← FieldKey.resolveAll keys
    pure (schema ++ "." ++ Path.ofKeys names)
  | .extended keys schema none => do
    let names ← FieldKey.resolveAll keys
    pure (schema ++ "." ++ Path.ofKeys names)
  | .extended _ _ (some _) => .error .unsupportedField
  | .custom _ => .error .unsupportedField

/-- The path of a field under the given addressing. -/
def resolve (mode : Addressing) (f : Field) : Except Error String :=
  match mode with
  | .plain => f.plainPath
  | .qualified => f.qualifiedPath

/-- Whether the field is the place where aggregates report their value. -/
def isAggregate (f : Field) : Bool := f.keys? == some [.aggregate]

end Field

end DocQuery
