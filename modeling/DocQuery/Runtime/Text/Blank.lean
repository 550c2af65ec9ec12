import DocQuery.Runtime.Text.Ranges

/-!
# White space

The characters with the property White_Space.
-/

namespace DocQuery.Runtime.Text

/-- The ranges of white space. -/
def blankRanges : Ranges := ⟨[
  (0x09, 0x0D), (0x20, 0x20), (0x85, 0x85), (0xA0, 0xA0), (0x1680, 0x1680), (0x2000, 0x200A),
  (0x2028, 0x2029), (0x202F, 0x202F), (0x205F, 0x205F), (0x3000, 0x3000)],
  by decide⟩

/-- Whether a character is white space. -/
def isBlank (c : Char) : Bool := inRanges blankRanges c.toNat

end DocQuery.Runtime.Text
