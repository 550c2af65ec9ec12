import DocQuery.Double.Shortest

/-!
# JSON values

The data of JSON with integers apart from other numbers and the members of objects in order.
`Json.render` writes a value compactly, numbers that are no integers with the fewest digits that
identify them.

A text can have the form of a value without any value of this type being meant: a number beyond the
largest double, half of a surrogate pair in a text, or containers nested too deep. It is read as
`Json.unrepresentable`, which no reader of data takes, but which may stand where a value is ignored.
-/

namespace DocQuery

/-- A JSON value. -/
inductive Json where
  | null
  | bool (b : Bool)
  | int (n : Int)
  | float (d : Double)
  | string (s : String)
  | array (items : List Json)
  | object (members : List (String × Json))
  /-- What has the form of a value and cannot be represented. -/
  | unrepresentable

namespace Json

instance : Inhabited Json := ⟨.null⟩

/-! ### Numbers -/

/-- Digits with a point after the first, and the exponent of ten. -/
def scientific (digits : List Char) (exponent : Int) : String :=
  match digits with
  | [] => "0.0"
  | [c] => String.ofList [c] ++ "e" ++ toString exponent
  | c :: cs => String.ofList (c :: '.' :: cs) ++ "e" ++ toString exponent

/-- The text of a decimal: positional while its leading digit stands at most sixteen places before
or five places behind the point, with an exponent otherwise. -/
def decimalText (x : Decimal) : String :=
  let digits := Nat.toDigits 10 x.digits
  let lead := (digits.length : Int) + x.exponent
  if 0 ≤ x.exponent ∧ lead ≤ 16 then x.text ++ ".0"
  else if -5 < lead ∧ lead ≤ 16 then x.text
  else scientific digits (lead - 1)

/-- The text of a number that is no integer, with an even last digit on a tie. What is no number has
none and is written as null. -/
def floatText (d : Double) : String :=
  if Double.infiniteMagnitude ≤ d.magnitude then "null"
  else
    let body := if d.isZero then "0.0" else decimalText (d.shortest .even)
    if d.isNegative then "-" ++ body else body

/-! ### Text -/

/-- A character inside quotes. -/
def escapeChar (c : Char) : List Char :=
  if c = '"' then ['\\', '"']
  else if c = '\\' then ['\\', '\\']
  else if c = '\n' then ['\\', 'n']
  else if c = '\r' then ['\\', 'r']
  else if c = '\t' then ['\\', 't']
  else if c.toNat < 0x20 then
    ['\\', 'u', '0', '0', (if c.toNat < 0x10 then '0' else '1'),
      Nat.digitChar (c.toNat % 16)]
  else [c]

/-- Text between quotes. -/
def quote (s : String) : String := String.ofList ('"' :: s.toList.flatMap escapeChar ++ ['"'])

mutual

/-- The compact text of a value. -/
def render : Json → String
  | .null => "null"
  | .bool b => if b then "true" else "false"
  | .int n => toString n
  | .float d => floatText d
  | .string s => quote s
  | .array items => "[" ++ renderItems items ++ "]"
  | .object members => "\x7b" ++ renderMembers members ++ "\x7d"
  | .unrepresentable => "null"

/-- Items with commas between them. -/
def renderItems : List Json → String
  | [] => ""
  | [v] => render v
  | v :: w :: vs => render v ++ "," ++ renderItems (w :: vs)

/-- Members with commas between them. -/
def renderMembers : List (String × Json) → String
  | [] => ""
  | [(k, v)] => quote k ++ ":" ++ render v
  | (k, v) :: m :: ms => quote k ++ ":" ++ render v ++ "," ++ renderMembers (m :: ms)

end

/-! ### Access -/

/-- The first member of that name. -/
def member? (key : String) : List (String × Json) → Option Json
  | [] => none
  | (k, v) :: ms => if k = key then some v else member? key ms

/-- How often a name occurs. -/
def occurrences (key : String) (members : List (String × Json)) : Nat :=
  members.countP fun m => m.1 == key

/-- The items of an array. -/
def items? : Json → Option (List Json)
  | .array items => some items
  | _ => none

/-- The members of an object. -/
def members? : Json → Option (List (String × Json))
  | .object members => some members
  | _ => none

/-- A text. -/
def string? : Json → Option String
  | .string s => some s
  | _ => none

/-- A truth value. -/
def bool? : Json → Option Bool
  | .bool b => some b
  | _ => none

/-- An integer. -/
def int? : Json → Option Int
  | .int n => some n
  | _ => none

/-- An integer between two bounds, the upper one excluded. -/
def intBetween? (low high : Int) (j : Json) : Option Int :=
  match j with
  | .int n => if low ≤ n ∧ n < high then some n else none
  | _ => none

end Json

end DocQuery
