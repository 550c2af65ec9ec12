/-!
# Reading UTF-8 with replacement

`Text.decodeLossy` reads any bytes as text. Where the bytes are no text, the replacement character
stands for the longest part that could have begun a character, or for one byte that could not.
-/

namespace DocQuery.Runtime.Text

/-- What the first byte of a character says: how many bytes follow, between which bounds the next
of them lies, and the leading bits of the character. -/
structure Lead where
  more : Nat
  low : Nat
  high : Nat
  bits : Nat

/-- What a byte says as the first of a character, if it can be that. -/
def lead? (b : Nat) : Option Lead :=
  if b < 0x80 then some ⟨0, 0x80, 0xBF, b⟩
  else if b < 0xC2 then none
  else if b < 0xE0 then some ⟨1, 0x80, 0xBF, b - 0xC0⟩
  else if b < 0xF0 then
    some ⟨2, if b = 0xE0 then 0xA0 else 0x80, if b = 0xED then 0x9F else 0xBF, b - 0xE0⟩
  else if b < 0xF5 then
    some ⟨3, if b = 0xF0 then 0x90 else 0x80, if b = 0xF4 then 0x8F else 0xBF, b - 0xF0⟩
  else none

/-- Read the bytes that follow the first of a character, after leading bits. There is no code point
if one is missing or out of bounds; the bytes that are left then begin with it. -/
def readFollowing : Nat → Nat → Nat → Nat → List UInt8 → Option Nat × List UInt8
  | 0, _, _, bits, bs => (some bits, bs)
  | _ + 1, _, _, _, [] => (none, [])
  | n + 1, low, high, bits, b :: bs =>
    if low ≤ b.toNat ∧ b.toNat ≤ high then
      readFollowing n 0x80 0xBF (64 * bits + b.toNat % 64) bs
    else (none, b :: bs)

/-- Nothing is added by reading. -/
private theorem length_readFollowing_le (n low high bits : Nat) (bs : List UInt8) :
    (readFollowing n low high bits bs).2.length ≤ bs.length := by
  fun_induction readFollowing n low high bits bs with
  | case1 => exact Nat.le_refl _
  | case2 => exact Nat.le_refl _
  | case3 _ _ _ _ _ _ _ ih => exact Nat.le_succ_of_le ih
  | case4 => exact Nat.le_refl _

/-- The character that stands for bytes that are no text. -/
def replacement : Char := Char.ofNat 0xFFFD

/-- The characters of bytes, with replacements. -/
def decodeLossy : List UInt8 → List Char
  | [] => []
  | b :: bs =>
    match lead? b.toNat with
    | none => replacement :: decodeLossy bs
    | some l =>
      let following := readFollowing l.more l.low l.high l.bits bs
      following.1.elim replacement Char.ofNat :: decodeLossy following.2
termination_by bs => bs.length
decreasing_by
  · exact Nat.lt_succ_self _
  · exact Nat.lt_succ_of_le (length_readFollowing_le ..)

end DocQuery.Runtime.Text
