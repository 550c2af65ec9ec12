import DocQuery.Bytes

/-!
# Numeric addresses of hosts

The text forms of 32-bit addresses, four decimal numbers, and of 128-bit addresses, up to eight
hexadecimal groups of which a run of zeros may be left out.
-/

namespace DocQuery.Runtime.ConnectionString

/-- Split at the first place where a text occurs. -/
def splitFirst? (separator : List Char) : List Char → Option (List Char × List Char)
  | [] => if separator.isEmpty then some ([], []) else none
  | c :: cs =>
    if separator.isPrefixOf (c :: cs) then some ([], (c :: cs).drop separator.length)
    else (splitFirst? separator cs).map fun (before, after) => (c :: before, after)

/-- Split at every place where a character occurs. -/
def splitAll (separator : Char) : List Char → List (List Char)
  | [] => [[]]
  | c :: cs =>
    if c = separator then [] :: splitAll separator cs
    else
      match splitAll separator cs with
      | [] => [[c]]
      | part :: parts => (c :: part) :: parts

/-- The number that decimal digits stand for. -/
def decimalValue (cs : List Char) : Nat :=
  cs.foldl (fun n c => 10 * n + (c.toNat - '0'.toNat)) 0

/-- Whether a text is a number below 256, without needless zeros. -/
def isOctet (cs : List Char) : Bool :=
  !cs.isEmpty && cs.length ≤ 3 && cs.all Char.isDigit && decimalValue cs < 256 &&
    (cs.head? != some '0' || cs.length == 1)

/-- Whether a text is a 32-bit address. -/
def isShortAddress (cs : List Char) : Bool :=
  let parts := splitAll '.' cs
  parts.length == 4 && parts.all isOctet

/-- Whether a text is one group of a 128-bit address. -/
def isGroup (cs : List Char) : Bool :=
  !cs.isEmpty && cs.length ≤ 4 && cs.all fun c => (Bytes.hexValue? c).isSome

/-- The number of groups that parts stand for, if they are groups. At the end of an address, a
32-bit address may stand for two of them. -/
def groupCount? (atEnd : Bool) : List (List Char) → Option Nat
  | [] => some 0
  | [part] =>
    if isGroup part then some 1
    else if atEnd && isShortAddress part then some 2
    else none
  | part :: parts => if isGroup part then (groupCount? atEnd parts).map (· + 1) else none

/-- The number of groups in a text, which may be empty. -/
def groupsIn? (atEnd : Bool) (cs : List Char) : Option Nat :=
  if cs.isEmpty then some 0 else groupCount? atEnd (splitAll ':' cs)

/-- Whether a text is a 128-bit address: eight groups, or fewer with two colons in place of those
left out. -/
def isLongAddress (cs : List Char) : Bool :=
  match splitFirst? [':', ':'] cs with
  | none => groupsIn? true cs == some 8
  | some (front, back) =>
    match groupsIn? false front, groupsIn? true back with
    | some m, some n => m + n ≤ 7
    | _, _ => false

end DocQuery.Runtime.ConnectionString
