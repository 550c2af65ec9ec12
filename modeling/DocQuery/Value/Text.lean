import DocQuery.Value
import DocQuery.Double.Shortest
import DocQuery.Bytes
import DocQuery.Calendar

/-!
# Text of values

The form in which messages show a value. Texts stand between quotes as they are, nothing is
escaped.
-/

namespace DocQuery

/-- The message text of an atom. -/
def Atom.text : Atom → String
  | .null => "null"
  | .bool b => if b then "true" else "false"
  | .int32 n => toString n.toInt
  | .int64 n => toString n.toInt
  | .double d => d.text
  | .string s => "\"" ++ s ++ "\""
  | .binary subtype bytes =>
    "Binary(0x" ++ String.ofList (Nat.toDigits 16 subtype.toNat) ++ ", " ++
      Bytes.toBase64 bytes ++ ")"
  | .dateTime millis => "DateTime(\"" ++ Calendar.text millis.toInt ++ "\")"
  | .objectId id => "ObjectId(\"" ++ Bytes.toHex id.bytes ++ "\")"
  | .regex pattern options => "/" ++ pattern ++ "/" ++ options
  | .timestamp time increment =>
    "Timestamp(" ++ toString time.toNat ++ ", " ++ toString increment.toNat ++ ")"
  | .symbol s => "Symbol(\"" ++ s ++ "\")"
  | .javascript code => code
  | .undefined => "undefined"
  | .minKey => "MinKey"
  | .maxKey => "MaxKey"

namespace Value

mutual

/-- The message text of a value. -/
def text : Value → String
  | .atom a => a.text
  | .array xs => "[" ++ itemsText xs ++ "]"
  | .document [] => "\x7b\x7d"
  | .document (e :: d) => "\x7b " ++ entriesText (e :: d) ++ " \x7d"

/-- The items of an array, with commas between them. -/
def itemsText : List Value → String
  | [] => ""
  | [v] => text v
  | v :: w :: vs => text v ++ ", " ++ itemsText (w :: vs)

/-- The entries of a document, with commas between them. -/
def entriesText : List (String × Value) → String
  | [] => ""
  | [(k, v)] => "\"" ++ k ++ "\": " ++ text v
  | (k, v) :: e :: d => "\"" ++ k ++ "\": " ++ text v ++ ", " ++ entriesText (e :: d)

end

end Value

/-- The message text of a document. -/
def Document.text (d : Document) : String := (Value.document d).text

end DocQuery
