import DocQuery.Field
import DocQuery.Join

/-!
# Rows

A query delivers rows. A row of a plain read holds its document under the name of the collection, a
row of a joined read holds the documents of all collections it joins, and everything else is
reported as a single value. Fields are read through the collection that owns them: the one a row
is narrowed to, else the one the field names. What a row does not hold reads as null.
-/

namespace DocQuery

/-- A row of a result. -/
inductive Row where
  | document (d : Document) (narrowed : Option String)
  | joined (d : Document) (layout : RowLayout) (narrowed : Option String)
  /-- The value of an aggregate, or the number of documents written. -/
  | aggregate (v : Value)
deriving DecidableEq

namespace Row

/-- The row of a document of a collection. -/
def ofDocument (schema : String) (d : Document) : Row := .document [(schema, .document d)] none

/-- The row of a document of a joined read. -/
def ofJoined (layout : RowLayout) (d : Document) : Row := .joined d layout none

/-- The row that reports a number. -/
def ofCount (n : Nat) : Row := .aggregate (.int64 (Int64.ofNat n))

/-- Read all fields through the given collection. -/
def narrow (schema : String) : Row → Row
  | .document d _ => .document d (some schema)
  | .joined d layout _ => .joined d layout (some schema)
  | .aggregate v => .aggregate v

/-- What stands at a path inside the document under a key. Of an attached list the first document
is read. -/
def valueUnder? (d : Document) (key path : String) : Option Value :=
  match d.value? key with
  | some (.document inner) => Document.read? inner path
  | some (.array (.document first :: _)) => Document.read? first path
  | _ => none

/-- The collection through which a field is read. -/
def owner (narrowed : Option String) (f : Field) : Except Error String :=
  match narrowed with
  | some schema => .ok schema
  | none =>
    match f.schema? with
    | some schema => .ok schema
    | none => .error .unsupportedField

/-- The key of a joined row under which a collection stands. -/
def joinedKey (layout : RowLayout) (schema : String) : String :=
  match SortedMap.get? schema layout with
  | some place => place.key
  | none => schema

/-- What a row holds at a field. -/
def fetch (row : Row) (f : Field) : Except Error (Option Value) := do
  let path ← f.plainPath
  match row with
  | .document d narrowed => do
    let schema ← owner narrowed f
    pure (valueUnder? d schema path)
  | .joined d layout narrowed => do
    let schema ← owner narrowed f
    pure (valueUnder? d (joinedKey layout schema) path)
  | .aggregate v => pure (some v)

/-- Whether a row holds a value for a field. -/
def contains (row : Row) (f : Field) : Bool :=
  match row with
  | .aggregate _ => f.isAggregate
  | row =>
    match row.fetch f with
    | .ok v => v.isSome
    | .error _ => false

/-- The value of a field. A row of a single value has that value for every field. -/
def value (row : Row) (f : Field) : Except Error Value :=
  match row with
  | .aggregate v => .ok v
  | row => do
    let v ← row.fetch f
    pure (v.getD .null)

end Row

end DocQuery
