import DocQuery.Field
import DocQuery.Json.Form

/-!
# Fields in JSON
-/

namespace DocQuery

namespace FieldKey

/-- A key in JSON. -/
def toJson : FieldKey → Json
  | .id => .string "Id"
  | .name s => .variant "Name" (.string s)
  | .aggregate => .string "Aggregate"
  | .prefixed outer inner => .variant "Prefix" (.array [outer.toJson, inner.toJson])

/-- The key that JSON stands for. -/
def ofJson? : Json → Option FieldKey
  | .object [("Prefix", .array [outer, inner])] =>
    match ofJson? outer, ofJson? inner with
    | some a, some b => some (.prefixed a b)
    | _, _ => none
  | j => do
    let (kind, content) ← j.variant?
    match kind with
    | "Id" => do
      let () ← Json.bare? content
      pure .id
    | "Aggregate" => do
      let () ← Json.bare? content
      pure .aggregate
    | "Name" => do
      let s ← content.bind Json.string?
      pure (.name s)
    | _ => none

end FieldKey

namespace Field

/-- A field in JSON. -/
def toJson : Field → Json
  | .path keys schema => .variant "Path" (.object [
      ("path", .ofList FieldKey.toJson keys), ("schema", .string schema)])
  | .extended keys schema space => .variant "Extended" (.object [
      ("path", .ofList FieldKey.toJson keys), ("schema", .string schema),
      ("space", .ofOption .string space)])
  | .custom text => .variant "Custom" (.string text)

/-- The field that JSON stands for. -/
def ofJson? (j : Json) : Option Field := do
  let (name, content) ← j.variant?
  let content ← content
  match name with
  | "Path" =>
    match ← Json.fields? ["path", "schema"] content with
    | [keys, schema] => do
      let keys ← keys.bind (Json.list? FieldKey.ofJson?)
      let schema ← schema.bind Json.string?
      pure (.path keys schema)
    | _ => none
  | "Extended" =>
    match ← Json.fields? ["path", "schema", "space"] content with
    | [keys, schema, space] => do
      let keys ← keys.bind (Json.list? FieldKey.ofJson?)
      let schema ← schema.bind Json.string?
      let space ← Json.optional? Json.string? space
      pure (.extended keys schema space)
    | _ => none
  | "Custom" => (Json.string? content).map .custom
  | _ => none

end Field

end DocQuery
