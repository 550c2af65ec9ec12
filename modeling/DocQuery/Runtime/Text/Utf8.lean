/-!
# Ranges of characters as ranges of bytes

A range of code points is encoded in UTF-8 by sequences of byte ranges: every choice of one byte
from each range of a sequence encodes a code point of the range, and every code point is encoded
by exactly one sequence.
-/

namespace DocQuery.Runtime.Text

/-- The byte ranges of the numbers between two bounds, written with one leading digit and as many
further digits of six bits as given. The leading digit is counted from `base`, further digits from
`0x80`. -/
def digitSequences : Nat → Nat → Nat → Nat → List (List (Nat × Nat))
  | 0, base, low, high => [[(base + low, base + high)]]
  | k + 1, base, low, high =>
    let unit := Nat.pow 64 (k + 1)
    let first := low / unit
    let last := high / unit
    let under (digit low high : Nat) : List (List (Nat × Nat)) :=
      (digitSequences k 0x80 low high).map fun rest => (base + digit, base + digit) :: rest
    if first = last then under first (low % unit) (high % unit)
    else
      let partialFirst := low % unit ≠ 0
      let partialLast := high % unit ≠ unit - 1
      let start := if partialFirst then first + 1 else first
      let stop := if partialLast then last else last + 1
      (if partialFirst then under first (low % unit) (unit - 1) else []) ++
        (if start < stop then
          [(base + start, base + stop - 1) :: List.replicate (k + 1) (0x80, 0xBF)] else []) ++
        (if partialLast then under last 0 (high % unit) else [])

/-- The parts of the code space that are encoded alike: the bytes that follow the first, the least
first byte, and the bounds. Surrogates belong to none. -/
def encodingBands : List (Nat × Nat × Nat × Nat) := [
  (0, 0, 0, 0x7F), (1, 0xC0, 0x80, 0x7FF), (2, 0xE0, 0x800, 0xD7FF), (2, 0xE0, 0xE000, 0xFFFF),
  (3, 0xF0, 0x10000, 0x10FFFF)]

/-- The sequences of byte ranges that encode a range of code points. -/
def byteSequences (r : Nat × Nat) : List (List (Nat × Nat)) :=
  encodingBands.flatMap fun (k, base, first, last) =>
    let low := max r.1 first
    let high := min r.2 last
    if low ≤ high then digitSequences k base low high else []

end DocQuery.Runtime.Text
