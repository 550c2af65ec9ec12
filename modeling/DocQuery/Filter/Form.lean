import DocQuery.Field.Form
import DocQuery.Filter
import DocQuery.Operand.Form

/-!
# Filters in JSON
-/

namespace DocQuery

namespace Location

/-- A location in JSON. -/
def toJson : Location → Json
  | .anywhere => .string "Anywhere"
  | .atStart => .string "Prefix"
  | .atEnd => .string "Suffix"

/-- The location that JSON stands for. -/
def ofJson? (j : Json) : Option Location := do
  let (name, content) ← j.variant?
  let () ← Json.bare? content
  match name with
  | "Anywhere" => some .anywhere
  | "Prefix" => some .atStart
  | "Suffix" => some .atEnd
  | _ => none

end Location

namespace FieldTest

/-- A test in JSON. -/
def toJson : FieldTest → Json
  | .equality inverse => .variant "Equality" (.object [("inverse", .bool inverse)])
  | .order inverse orEqual => .variant "Order" (.object [
      ("inverse", .bool inverse), ("equality", .bool orEqual)])
  | .subset inverse => .variant "Subset" (.object [("inverse", .bool inverse)])
  | .contains inverse location => .variant "Contains" (.object [
      ("inverse", .bool inverse), ("location", location.toJson)])
  | .custom name => .variant "Custom" (.string name)

/-- The test that JSON stands for. -/
def ofJson? (j : Json) : Option FieldTest := do
  let (name, content) ← j.variant?
  let content ← content
  match name with
  | "Equality" =>
    match ← Json.fields? ["inverse"] content with
    | [inverse] => (inverse.bind Json.bool?).map .equality
    | _ => none
  | "Order" =>
    match ← Json.fields? ["inverse", "equality"] content with
    | [inverse, orEqual] => do
      let inverse ← inverse.bind Json.bool?
      let orEqual ← orEqual.bind Json.bool?
      pure (.order inverse orEqual)
    | _ => none
  | "Subset" =>
    match ← Json.fields? ["inverse"] content with
    | [inverse] => (inverse.bind Json.bool?).map .subset
    | _ => none
  | "Contains" =>
    match ← Json.fields? ["inverse", "location"] content with
    | [inverse, location] => do
      let inverse ← inverse.bind Json.bool?
      let location ← location.bind Location.ofJson?
      pure (.contains inverse location)
    | _ => none
  | "Custom" => (Json.string? content).map .custom
  | _ => none

end FieldTest

namespace Relation

/-- A relation in JSON. -/
def toJson : Relation → Json
  | .all => .string "And"
  | .any => .string "Or"
  | .custom name => .variant "Custom" (.string name)

/-- The relation that JSON stands for. -/
def ofJson? (j : Json) : Option Relation := do
  let (name, content) ← j.variant?
  match name with
  | "And" => (Json.bare? content).map fun () => .all
  | "Or" => (Json.bare? content).map fun () => .any
  | "Custom" => (content.bind Json.string?).map .custom
  | _ => none

end Relation

namespace Filter

mutual

/-- A filter in JSON. -/
def toJson : Filter → Json
  | .value field test operand => .variant "Value" (.object [
      ("field", field.toJson), ("method", test.toJson), ("value", operand.toJson)])
  | .fields lhs test rhs => .variant "Field" (.object [
      ("lhs", lhs.toJson), ("method", test.toJson), ("rhs", rhs.toJson)])
  | .group filters relation => .variant "Group" (.object [
      ("filters", .array (eachToJson filters)), ("relation", relation.toJson)])
  | .raw document => .variant "Custom" (.variant "Document" document.toJson)
  | .otherBackend text => .variant "Custom" (.variant "Opaque" (.string text))

/-- Several filters in JSON. -/
def eachToJson : List Filter → List Json
  | [] => []
  | f :: fs => toJson f :: eachToJson fs

end

/-- The filter without members that JSON stands for. -/
def leafOfJson? (j : Json) : Option Filter := do
  let (name, content) ← j.variant?
  let content ← content
  match name with
  | "Value" =>
    match ← Json.fields? ["field", "method", "value"] content with
    | [field, test, operand] => do
      let field ← field.bind Field.ofJson?
      let test ← test.bind FieldTest.ofJson?
      let operand ← operand.bind Operand.ofJson?
      pure (.value field test operand)
    | _ => none
  | "Field" =>
    match ← Json.fields? ["lhs", "method", "rhs"] content with
    | [lhs, test, rhs] => do
      let lhs ← lhs.bind Field.ofJson?
      let test ← test.bind FieldTest.ofJson?
      let rhs ← rhs.bind Field.ofJson?
      pure (.fields lhs test rhs)
    | _ => none
  | "Custom" => do
    let (kind, content) ← content.variant?
    match kind with
    | "Document" => (content.bind Document.ofJson?).map .raw
    | "Opaque" => (content.bind Json.string?).map .otherBackend
    | _ => none
  | _ => none

mutual

/-- The filter that JSON stands for. -/
def ofJson? : Json → Option Filter
  | .object [("Group", .array [filters, relation])] =>
    match listOfJson? filters, Relation.ofJson? relation with
    | some fs, some r => some (.group fs r)
    | _, _ => none
  | .object [("Group", .object members)] =>
    if Json.distinct ["filters", "relation"] members then
      match memberOfJson? members, (Json.member? "relation" members).bind Relation.ofJson? with
      | some fs, some r => some (.group fs r)
      | _, _ => none
    else none
  | j => leafOfJson? j

/-- The filters of a group, which stand under their name among the members. -/
def memberOfJson? : List (String × Json) → Option (List Filter)
  | [] => none
  | (k, j) :: ms => if k = "filters" then listOfJson? j else memberOfJson? ms

/-- The filters that an array stands for. -/
def listOfJson? : Json → Option (List Filter)
  | .array items => itemsOfJson? items
  | _ => none

/-- The filters that several items stand for. -/
def itemsOfJson? : List Json → Option (List Filter)
  | [] => some []
  | j :: js =>
    match ofJson? j, itemsOfJson? js with
    | some f, some fs => some (f :: fs)
    | _, _ => none

end

end Filter

end DocQuery
