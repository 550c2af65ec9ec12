import DocQuery.Bytes
import DocQuery.Json

/-!
# Reading JSON

`Json.parse?` reads a text that holds one JSON value, blanks around it allowed. Containers may be
nested up to a given depth. An integer that fits 64 bits, signed or not, is read as an integer;
every other number is read as a double, from as many leading digits as fit 64 bits and a power of
ten, multiplied or divided in double precision. A number beyond the largest double, a text with
half of a surrogate pair and a container nested deeper are read as unrepresentable.
-/

namespace DocQuery.Json

/-- Drop blanks. -/
def skipBlanks : List Char → List Char
  | [] => []
  | c :: cs => if c = ' ' ∨ c = '\n' ∨ c = '\t' ∨ c = '\r' then skipBlanks cs else c :: cs

/-- Split off the leading decimal digits, as numbers. -/
def takeDigits : List Char → List Nat × List Char
  | [] => ([], [])
  | c :: cs =>
    if c.isDigit then
      let (ds, rest) := takeDigits cs
      ((c.toNat - '0'.toNat) :: ds, rest)
    else ([], c :: cs)

/-! ### Numbers -/

/-- Append digits to a number while it fits 64 bits; the digits left over are returned. -/
def absorb (n : Nat) : List Nat → Nat × List Nat
  | [] => (n, [])
  | d :: ds => if 10 * n + d < UInt64.size then absorb (10 * n + d) ds else (n, d :: ds)

/-- The double nearest to a power of ten. -/
def powerOfTen (k : Nat) : Double := .ofInt (Nat.pow 10 k)

/-- Divide by powers of ten, at most `1e308` at a time. -/
def scaleDown : Nat → Double → Nat → Double
  | 0, x, _ => x
  | fuel + 1, x, k =>
    if k ≤ 308 then x.div (powerOfTen k)
    else if x.isZero then x
    else scaleDown fuel (x.div (powerOfTen 308)) (k - 308)

/-- A significand times a power of ten, unless it is beyond the largest double. -/
def scaled (significand : Nat) (exponent : Int) : Option Double :=
  let x := Double.ofInt significand
  if exponent < 0 then some (scaleDown 8 x exponent.natAbs)
  else if 308 < exponent then (if x.isZero then some x else none)
  else
    let y := x.mul (powerOfTen exponent.toNat)
    if Double.infiniteMagnitude ≤ y.magnitude then none else some y

/-- The sign and the digits of an exponent. -/
def exponentPart (cs : List Char) : Option (Int × List Char) :=
  let (negative, cs) :=
    match cs with
    | '+' :: rest => (false, rest)
    | '-' :: rest => (true, rest)
    | cs => (false, cs)
  match takeDigits cs with
  | ([], _) => none
  | (ds, rest) =>
    let n : Nat := ds.foldl (fun n d => 10 * n + d) 0
    some (if negative then -(n : Int) else n, rest)

/-- The rest of a number that is no integer, after its significand and its exponent so far. -/
def finishFloat (negative : Bool) (significand : Nat) (exponent : Int) (cs : List Char) :
    Option (Json × List Char) := do
  let (shift, rest) ←
    match cs with
    | 'e' :: rest => exponentPart rest
    | 'E' :: rest => exponentPart rest
    | cs => some (0, cs)
  match scaled significand (exponent + shift) with
  | some x => pure (.float (if negative then x.neg else x), rest)
  | none => pure (.unrepresentable, rest)

/-- A number, after its sign. -/
def number (negative : Bool) (cs : List Char) : Option (Json × List Char) :=
  match takeDigits cs with
  | ([], _) => none
  | (0 :: _ :: _, _) => none
  | (whole, rest) =>
    let (significand, dropped) := absorb 0 whole
    match rest with
    | '.' :: rest =>
      match takeDigits rest with
      | ([], _) => none
      | (fraction, rest) =>
        let (significand, left) := absorb significand fraction
        let exponent := (dropped.length : Int) - ((fraction.length - left.length : Nat) : Int)
        finishFloat negative significand exponent rest
    | 'e' :: _ => finishFloat negative significand dropped.length rest
    | 'E' :: _ => finishFloat negative significand dropped.length rest
    | rest =>
      if dropped ≠ [] then finishFloat negative significand dropped.length rest
      else if !negative then some (.int significand, rest)
      else if 0 < significand ∧ significand ≤ 0x8000000000000000 then
        some (.int (-(significand : Int)), rest)
      else some (.float (Double.ofInt significand).neg, rest)

/-! ### Text -/

/-- The number of four hexadecimal digits. -/
def hexUnit? (a b c d : Char) : Option Nat := do
  let a ← Bytes.hexValue? a
  let b ← Bytes.hexValue? b
  let c ← Bytes.hexValue? c
  let d ← Bytes.hexValue? d
  pure (4096 * a + 256 * b + 16 * c + d)

/-- The character of a one-letter escape. -/
def unescape? : Char → Option Char
  | '"' => some '"'
  | '\\' => some '\\'
  | '/' => some '/'
  | 'b' => some '\x08'
  | 'f' => some '\x0c'
  | 'n' => some '\n'
  | 'r' => some '\r'
  | 't' => some '\t'
  | _ => none

/-- What a text is written with: characters, and 16-bit units given by their numbers. -/
inductive Piece where
  | char (c : Char)
  | unit (n : Nat)

/-- The pieces of a text up to its closing quote. -/
def pieces : List Char → Option (List Piece × List Char)
  | [] => none
  | '"' :: rest => some ([], rest)
  | '\\' :: 'u' :: a :: b :: c :: d :: rest =>
    match hexUnit? a b c d, pieces rest with
    | some n, some (ps, rest) => some (.unit n :: ps, rest)
    | _, _ => none
  | '\\' :: c :: rest =>
    match unescape? c, pieces rest with
    | some c, some (ps, rest) => some (.char c :: ps, rest)
    | _, _ => none
  | c :: rest =>
    if c.toNat < 0x20 ∨ c = '\\' then none
    else
      match pieces rest with
      | some (ps, rest) => some (.char c :: ps, rest)
      | none => none

/-- Whether a unit is the first half of a surrogate pair. -/
def isHighSurrogate (n : Nat) : Bool := 0xD800 ≤ n && n < 0xDC00

/-- Whether a unit is the second half of a surrogate pair. -/
def isLowSurrogate (n : Nat) : Bool := 0xDC00 ≤ n && n < 0xE000

/-- The characters of pieces, surrogates taken in pairs; half a pair is no character. -/
def joinPieces : List Piece → Option (List Char)
  | [] => some []
  | .char c :: ps => (joinPieces ps).map (c :: ·)
  | .unit n :: .unit m :: ps =>
    if isHighSurrogate n then
      if isLowSurrogate m then
        (joinPieces ps).map (Char.ofNat (0x10000 + 0x400 * (n - 0xD800) + (m - 0xDC00)) :: ·)
      else none
    else if isLowSurrogate n then none
    else (joinPieces (.unit m :: ps)).map (Char.ofNat n :: ·)
  | .unit n :: ps =>
    if isHighSurrogate n || isLowSurrogate n then none
    else (joinPieces ps).map (Char.ofNat n :: ·)

/-- The text of pieces, if they stand for one. -/
def textOf? (ps : List Piece) : Option String := (joinPieces ps).map String.ofList

/-- Take the characters of a word off the front. -/
def expect : List Char → List Char → Option (List Char)
  | [], cs => some cs
  | _ :: _, [] => none
  | w :: ws, c :: cs => if w = c then expect ws cs else none

/-! ### Values -/

/-- A container within the given depth. -/
def contained (depth : Nat) (j : Json) : Json := if depth = 0 then .unrepresentable else j

mutual

/-- One value, after blanks. The first number bounds the characters that remain, the second is the
number of containers that may be open at once. -/
def value : Nat → Nat → List Char → Option (Json × List Char)
  | 0, _, _ => none
  | n + 1, depth, cs =>
    match skipBlanks cs with
    | [] => none
    | '"' :: rest =>
      (pieces rest).map fun (ps, rest) => (((textOf? ps).elim .unrepresentable .string), rest)
    | '[' :: rest =>
      match skipBlanks rest with
      | ']' :: rest => some (contained depth (.array []), rest)
      | rest => (items n (depth - 1) rest).map fun (vs, rest) => (contained depth (.array vs), rest)
    | '\x7b' :: rest =>
      match skipBlanks rest with
      | '\x7d' :: rest => some (contained depth (.object []), rest)
      | rest =>
        (members n (depth - 1) rest).map fun (ms, rest) =>
          (contained depth (ms.elim .unrepresentable .object), rest)
    | '-' :: rest => number true rest
    | 'n' :: rest => (expect ['u', 'l', 'l'] rest).map fun rest => (.null, rest)
    | 't' :: rest => (expect ['r', 'u', 'e'] rest).map fun rest => (.bool true, rest)
    | 'f' :: rest => (expect ['a', 'l', 's', 'e'] rest).map fun rest => (.bool false, rest)
    | cs => number false cs

/-- The items of an array that has any, through its closing bracket. -/
def items : Nat → Nat → List Char → Option (List Json × List Char)
  | 0, _, _ => none
  | n + 1, depth, cs =>
    match value n depth cs with
    | none => none
    | some (v, rest) =>
      match skipBlanks rest with
      | ',' :: rest => (items n depth rest).map fun (vs, rest) => (v :: vs, rest)
      | ']' :: rest => some ([v], rest)
      | _ => none

/-- The members of an object that has any, through its closing brace; there are none to speak of
when a name cannot be represented. -/
def members : Nat → Nat → List Char → Option (Option (List (String × Json)) × List Char)
  | 0, _, _ => none
  | n + 1, depth, cs =>
    match skipBlanks cs with
    | '"' :: rest =>
      match pieces rest with
      | none => none
      | some (ps, rest) =>
        match skipBlanks rest with
        | ':' :: rest =>
          match value n depth rest with
          | none => none
          | some (v, rest) =>
            let member := (textOf? ps).map fun key => (key, v)
            match skipBlanks rest with
            | ',' :: rest =>
              (members n depth rest).map fun (ms, rest) =>
                ((member.bind fun m => ms.map (m :: ·)), rest)
            | '\x7d' :: rest => some (member.map ([·]), rest)
            | _ => none
        | _ => none
    | _ => none

end

/-- The value that a text holds, its containers nested no deeper than the given depth. -/
def parse? (depth : Nat) (s : String) : Option Json :=
  let cs := s.toList
  match value (2 * cs.length + 1) depth cs with
  | some (v, rest) => if skipBlanks rest = [] then some v else none
  | none => none

end DocQuery.Json
