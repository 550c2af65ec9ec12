import DocQuery.Operand
import DocQuery.Value.Form

/-!
# Operands in JSON
-/

namespace DocQuery

namespace Scalar

/-- A scalar in JSON. -/
def toJson : Scalar → Json
  | .null => .string "Null"
  | .bool b => .variant "Bool" (.bool b)
  | .int32 n => .variant "Int32" (.int n.toInt)
  | .int64 n => .variant "Int64" (.int n.toInt)
  | .double d => .variant "Float64" (.float d)
  | .string s => .variant "String" (.string s)
  | .bytes b => .variant "Bytes" (.ofBytes b)
  | .dateTime millis => .variant "DateTime" (.int millis.toInt)
  | .uuid u => .variant "Uuid" (.ofBytes u.bytes)
  | .objectId id => .variant "ObjectId" (.ofBytes id.bytes)

/-- The scalar that JSON stands for. -/
def ofJson? (j : Json) : Option Scalar := do
  let (name, content) ← j.variant?
  match name with
  | "Null" => (Json.bare? content).map fun () => .null
  | name => do
    let content ← content
    match name with
    | "Bool" => content.bool?.map .bool
    | "Int32" => content.int32?.map .int32
    | "Int64" => content.int64?.map .int64
    | "Float64" => content.double?.map .double
    | "String" => content.string?.map .string
    | "Bytes" => content.bytes?.map .bytes
    | "DateTime" => content.int64?.map .dateTime
    | "Uuid" => (content.bytes?.bind Uuid.ofBytes?).map .uuid
    | "ObjectId" => (content.bytes?.bind ObjectId.ofBytes?).map .objectId
    | _ => none

end Scalar

namespace Operand

mutual

/-- An operand in JSON. -/
def toJson : Operand → Json
  | .bind s => .variant "Bind" s.toJson
  | .array items => .variant "Array" (.array (itemsToJson items))
  | .dictionary entries => .variant "Dictionary" (.object (entriesToJson entries))
  | .null => .string "Null"
  | .enumCase name => .variant "EnumCase" (.string name)
  | .default => .string "Default"
  | .primitive v => .variant "Custom" (.variant "Primitive" v.toJson)
  | .otherBackend text => .variant "Custom" (.variant "Opaque" (.string text))

/-- Several operands in JSON. -/
def itemsToJson : List Operand → List Json
  | [] => []
  | q :: qs => toJson q :: itemsToJson qs

/-- The entries of a dictionary in JSON. -/
def entriesToJson : List (String × Operand) → List (String × Json)
  | [] => []
  | (k, q) :: es => (k, toJson q) :: entriesToJson es

end

/-- The operand without parts that JSON stands for. -/
def leafOfJson? (j : Json) : Option Operand := do
  let (name, content) ← j.variant?
  match name with
  | "Null" => (Json.bare? content).map fun () => .null
  | "Default" => (Json.bare? content).map fun () => .default
  | "Bind" => (content.bind Scalar.ofJson?).map .bind
  | "EnumCase" => (content.bind Json.string?).map .enumCase
  | "Custom" => do
    let (kind, content) ← content.bind Json.variant?
    match kind with
    | "Primitive" => (content.bind Value.ofJson?).map .primitive
    | "Opaque" => (content.bind Json.string?).map .otherBackend
    | _ => none
  | _ => none

mutual

/-- The operand that JSON stands for. -/
def ofJson? : Json → Option Operand
  | .object [("Array", .array items)] => (itemsOfJson? items).map .array
  | .object [("Dictionary", .object members)] => (entriesOfJson? members).map dictionaryOf
  | j => leafOfJson? j

/-- The operands that several items stand for. -/
def itemsOfJson? : List Json → Option (List Operand)
  | [] => some []
  | j :: js =>
    match ofJson? j, itemsOfJson? js with
    | some q, some qs => some (q :: qs)
    | _, _ => none

/-- The entries that members stand for. -/
def entriesOfJson? : List (String × Json) → Option (List (String × Operand))
  | [] => some []
  | (k, j) :: ms =>
    match ofJson? j, entriesOfJson? ms with
    | some q, some es => some ((k, q) :: es)
    | _, _ => none

end

end Operand

end DocQuery
