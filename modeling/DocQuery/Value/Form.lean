import DocQuery.Bytes
import DocQuery.Json.Form
import DocQuery.Value

/-!
# Values in JSON

Null, truth values, texts, arrays and documents have counterparts in JSON. Integers are read into
the narrower width when they are not negative and fit it. Values of other kinds are written as an
object of one member under a reserved name, and are not read back.
-/

namespace DocQuery

/-- An atom in JSON. -/
def Atom.toJson : Atom → Json
  | .null => .null
  | .bool b => .bool b
  | .int32 n => .int n.toInt
  | .int64 n => .int n.toInt
  | .double d => .float d
  | .string s => .string s
  | .binary subtype bytes => .variant "$binary" (.object [
      ("base64", .string (Bytes.toBase64 bytes)), ("subType", .string (Bytes.toHex [subtype]))])
  | .dateTime millis =>
    .variant "$date" (.variant "$numberLong" (.string (toString millis.toInt)))
  | .objectId id => .variant "$oid" (.string (Bytes.toHex id.bytes))
  | .regex pattern options => .variant "$regularExpression" (.object [
      ("pattern", .string pattern), ("options", .string options)])
  | .timestamp time increment => .variant "$timestamp" (.object [
      ("t", .int time.toNat), ("i", .int increment.toNat)])
  | .symbol s => .variant "$symbol" (.string s)
  | .javascript code => .variant "$code" (.string code)
  | .undefined => .variant "$undefined" (.bool true)
  | .minKey => .variant "$minKey" (.int 1)
  | .maxKey => .variant "$maxKey" (.int 1)

namespace Value

mutual

/-- A value in JSON. -/
def toJson : Value → Json
  | .atom a => a.toJson
  | .array items => .array (itemsToJson items)
  | .document d => .object (entriesToJson d)

/-- Several values in JSON. -/
def itemsToJson : List Value → List Json
  | [] => []
  | v :: vs => toJson v :: itemsToJson vs

/-- The entries of a document in JSON. -/
def entriesToJson : List (String × Value) → List (String × Json)
  | [] => []
  | (k, v) :: d => (k, toJson v) :: entriesToJson d

end

/-- An integer in the narrower width if it is not negative and fits. -/
def ofInt? (n : Int) : Option Value :=
  if 0 ≤ n ∧ n < 0x80000000 then some (.int32 (Int32.ofInt n))
  else if -0x8000000000000000 ≤ n ∧ n < 0x8000000000000000 then some (.int64 (Int64.ofInt n))
  else none

mutual

/-- The value that JSON stands for. -/
def ofJson? : Json → Option Value
  | .null => some .null
  | .bool b => some (.bool b)
  | .int n => ofInt? n
  | .float d => some (.double d)
  | .string s => some (.string s)
  | .array items => (itemsOfJson? items).map .array
  | .object members => (entriesOfJson? members).map fun es => .document (Document.ofEntries es)
  | .unrepresentable => none

/-- The values that several items stand for. -/
def itemsOfJson? : List Json → Option (List Value)
  | [] => some []
  | j :: js =>
    match ofJson? j, itemsOfJson? js with
    | some v, some vs => some (v :: vs)
    | _, _ => none

/-- The entries that members stand for. -/
def entriesOfJson? : List (String × Json) → Option (List (String × Value))
  | [] => some []
  | (k, j) :: ms =>
    match ofJson? j, entriesOfJson? ms with
    | some v, some es => some ((k, v) :: es)
    | _, _ => none

end

end Value

namespace Document

/-- A document in JSON. -/
def toJson (d : Document) : Json := (Value.document d).toJson

/-- The document that an object stands for. -/
def ofJson? (j : Json) : Option Document := (Value.ofJson? j).bind Value.document?

end Document

end DocQuery
