/-!
# Text forms of bytes

Lower-case hexadecimal, two digits a byte, and base 64 with padding.
-/

namespace DocQuery.Bytes

/-- The digit of a number below sixteen. -/
def hexDigit (n : Nat) : Char :=
  if n < 10 then Char.ofNat ('0'.toNat + n) else Char.ofNat ('a'.toNat + (n - 10))

/-- The number of a hexadecimal digit, of either case. -/
def hexValue? (c : Char) : Option Nat :=
  if '0' ≤ c ∧ c ≤ '9' then some (c.toNat - '0'.toNat)
  else if 'a' ≤ c ∧ c ≤ 'f' then some (c.toNat - 'a'.toNat + 10)
  else if 'A' ≤ c ∧ c ≤ 'F' then some (c.toNat - 'A'.toNat + 10)
  else none

/-- Two hexadecimal digits a byte. -/
def toHex (bytes : List UInt8) : String :=
  String.ofList (bytes.flatMap fun b => [hexDigit (b.toNat / 16), hexDigit (b.toNat % 16)])

/-- Read two hexadecimal digits a byte. -/
def readHex : List Char → Option (List UInt8)
  | [] => some []
  | [_] => none
  | h :: l :: rest => do
    let high ← hexValue? h
    let low ← hexValue? l
    let bytes ← readHex rest
    pure (UInt8.ofNat (16 * high + low) :: bytes)

/-- The bytes of a hexadecimal text. -/
def ofHex? (s : String) : Option (List UInt8) := readHex s.toList

/-- The base 64 digit of a number below 64. -/
def base64Digit (n : Nat) : Char :=
  if n < 26 then Char.ofNat ('A'.toNat + n)
  else if n < 52 then Char.ofNat ('a'.toNat + (n - 26))
  else if n < 62 then Char.ofNat ('0'.toNat + (n - 52))
  else if n = 62 then '+'
  else '/'

/-- Base 64 digits, four for every three bytes; the last group is padded. -/
def base64Digits : List UInt8 → List Char
  | [] => []
  | [a] =>
    let n := a.toNat * 0x10000
    [base64Digit (n / 0x40000), base64Digit (n / 0x1000 % 64), '=', '=']
  | [a, b] =>
    let n := a.toNat * 0x10000 + b.toNat * 0x100
    [base64Digit (n / 0x40000), base64Digit (n / 0x1000 % 64), base64Digit (n / 0x40 % 64), '=']
  | a :: b :: c :: rest =>
    let n := a.toNat * 0x10000 + b.toNat * 0x100 + c.toNat
    base64Digit (n / 0x40000) :: base64Digit (n / 0x1000 % 64) :: base64Digit (n / 0x40 % 64) ::
      base64Digit (n % 64) :: base64Digits rest

/-- The base 64 text of bytes. -/
def toBase64 (bytes : List UInt8) : String := String.ofList (base64Digits bytes)

end DocQuery.Bytes
