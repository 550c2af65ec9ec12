import DocQuery.Runtime.Text.CaseFold
import DocQuery.Runtime.Text.Cased

/-!
# Lower case

`Text.lower` puts a text into lower case. Letters are mapped one by one, except that a capital
sigma at the end of a word has a lower-case form of its own.
-/

namespace DocQuery.Runtime.Text

/-- The ranges of lower-case letters that have another letter as their representative among those
that differ in case only. -/
def lowerVariantRanges : Ranges := ⟨[
  (0xB5, 0xB5), (0x17F, 0x17F), (0x345, 0x345), (0x3C2, 0x3C2), (0x3D0, 0x3D1), (0x3D5, 0x3D6),
  (0x3F0, 0x3F1), (0x3F5, 0x3F5), (0x13F8, 0x13FD), (0x1C80, 0x1C88), (0x1E9B, 0x1E9B),
  (0x1FBE, 0x1FBE), (0x1FD3, 0x1FD3), (0x1FE3, 0x1FE3), (0xAB70, 0xABBF), (0xFB05, 0xFB05)],
  by decide⟩

/-- The lower-case form of a character by itself. Representatives of case folding are lower-case
letters, but for the script whose capitals (`0x13A0` to `0x13F5`) represent its small letters. -/
def lowerChar (c : Char) : List Char :=
  let n := c.toNat
  if n = 0x130 then ['i', Char.ofNat 0x307]
  else if 0x13A0 ≤ n ∧ n ≤ 0x13EF then [Char.ofNat (n + 0x97D0)]
  else if 0x13F0 ≤ n ∧ n ≤ 0x13F5 then [Char.ofNat (n + 8)]
  else if inRanges lowerVariantRanges n then [c]
  else [Char.ofNat (foldCase n)]

/-- Whether a cased character comes first when the characters to be passed over are dropped. -/
def leadsToCased (cs : List Char) : Bool := (cs.dropWhile isCaseIgnorable).head?.any isCased

/-- The lower-case form of characters that follow others, which are given nearest first. A capital
sigma is final if a cased character leads up to it and none follows. -/
def lowerAfter (before : List Char) : List Char → List Char
  | [] => []
  | c :: rest =>
    let here :=
      if c.toNat = 0x3A3 then
        [Char.ofNat (if leadsToCased before && !leadsToCased rest then 0x3C2 else 0x3C3)]
      else lowerChar c
    here ++ lowerAfter (c :: before) rest

/-- A text in lower case. -/
def lower (s : String) : String := String.ofList (lowerAfter [] s.toList)

end DocQuery.Runtime.Text
