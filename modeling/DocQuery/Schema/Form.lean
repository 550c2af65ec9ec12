import DocQuery.Field.Form
import DocQuery.Schema

/-!
# Schema operations in JSON
-/

namespace DocQuery

namespace SchemaAction

/-- A schema action in JSON. -/
def toJson : SchemaAction → Json
  | .create => .string "Create"
  | .update => .string "Update"
  | .delete => .string "Delete"

/-- The schema action that JSON stands for. -/
def ofJson? (j : Json) : Option SchemaAction := do
  let (name, content) ← j.variant?
  let () ← Json.bare? content
  match name with
  | "Create" => some .create
  | "Update" => some .update
  | "Delete" => some .delete
  | _ => none

end SchemaAction

namespace IndexedField

/-- A field name in JSON. -/
def toJson : IndexedField → Json
  | .key k => .variant "Key" k.toJson
  | .custom text => .variant "Custom" (.string text)

/-- The field name that JSON stands for. -/
def ofJson? (j : Json) : Option IndexedField := do
  let (name, content) ← j.variant?
  let content ← content
  match name with
  | "Key" => (FieldKey.ofJson? content).map .key
  | "Custom" => content.string?.map .custom
  | _ => none

end IndexedField

namespace ConstraintKind

/-- A constraint's kind in JSON. -/
def toJson : ConstraintKind → Json
  | .unique fields => .variant "Unique" (.ofList IndexedField.toJson fields)
  | .compositeIdentifier fields =>
    .variant "CompositeIdentifier" (.ofList IndexedField.toJson fields)
  | .foreignKey fields foreignSchema foreignFields => .variant "ForeignKey" (.object [
      ("fields", .ofList IndexedField.toJson fields), ("foreign_schema", .string foreignSchema),
      ("foreign_fields", .ofList IndexedField.toJson foreignFields)])
  | .custom text => .variant "Custom" (.string text)

/-- The constraint's kind that JSON stands for. -/
def ofJson? (j : Json) : Option ConstraintKind := do
  let (name, content) ← j.variant?
  let content ← content
  match name with
  | "Unique" => (content.list? IndexedField.ofJson?).map .unique
  | "CompositeIdentifier" => (content.list? IndexedField.ofJson?).map .compositeIdentifier
  | "ForeignKey" =>
    match ← Json.fields? ["fields", "foreign_schema", "foreign_fields"] content with
    | [fields, foreignSchema, foreignFields] => do
      let fields ← fields.bind (Json.list? IndexedField.ofJson?)
      let foreignSchema ← foreignSchema.bind Json.string?
      let foreignFields ← foreignFields.bind (Json.list? IndexedField.ofJson?)
      pure (.foreignKey fields foreignSchema foreignFields)
    | _ => none
  | "Custom" => content.string?.map .custom
  | _ => none

end ConstraintKind

namespace Constraint

/-- A constraint in JSON. -/
def toJson : Constraint → Json
  | .standard kind name => .variant "Constraint" (.object [
      ("algorithm", kind.toJson), ("name", .ofOption .string name)])
  | .custom text => .variant "Custom" (.string text)

/-- The constraint that JSON stands for. -/
def ofJson? (j : Json) : Option Constraint := do
  let (name, content) ← j.variant?
  let content ← content
  match name with
  | "Constraint" =>
    match ← Json.fields? ["algorithm", "name"] content with
    | [kind, name] => do
      let kind ← kind.bind ConstraintKind.ofJson?
      let name ← Json.optional? Json.string? name
      pure (.standard kind name)
    | _ => none
  | "Custom" => content.string?.map .custom
  | _ => none

end Constraint

namespace SchemaOperation

/-- A schema operation in JSON. -/
def toJson (o : SchemaOperation) : Json := .object [
  ("action", o.action.toJson),
  ("schema", .string o.schema),
  ("create_constraints", .ofList Constraint.toJson o.constraints)]

/-- The schema operation that JSON stands for. -/
def ofJson? (j : Json) : Option SchemaOperation := do
  match ← Json.fields? ["action", "schema", "create_constraints"] j with
  | [action, schema, constraints] => do
    let action ← action.bind SchemaAction.ofJson?
    let schema ← schema.bind Json.string?
    let constraints ← constraints.bind (Json.list? Constraint.ofJson?)
    pure ⟨action, schema, constraints⟩
  | _ => none

end SchemaOperation

end DocQuery
