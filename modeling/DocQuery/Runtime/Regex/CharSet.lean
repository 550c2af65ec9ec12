import DocQuery.Runtime.Text.Blank
import DocQuery.Runtime.Text.CaseFold
import DocQuery.Runtime.Text.Digit
import DocQuery.Runtime.Text.Word

/-!
# Sets of characters

The sets that a pattern can describe for a single position. A set is kept as the ascending ranges
of the code points in it. Surrogates, which are no characters, may lie in a range as well.
-/

namespace DocQuery.Runtime

/-- A set of characters. -/
structure CharSet where
  ranges : Text.Ranges
deriving DecidableEq

namespace CharSet

/-- Membership. -/
def mem (s : CharSet) (c : Char) : Bool := Text.inRanges s.ranges c.toNat

/-- No character. -/
def empty : CharSet := ⟨.empty⟩

/-- The characters from one to another. -/
def range (first last : Char) : CharSet :=
  if h : first.toNat ≤ last.toNat then ⟨.one first.toNat last.toNat h⟩ else empty

/-- The set of one character. -/
def single (c : Char) : CharSet := ⟨.one c.toNat c.toNat (Nat.le_refl _)⟩

/-- The decimal digits. -/
def digit : CharSet := ⟨Text.digitRanges⟩

/-- White space. -/
def blank : CharSet := ⟨Text.blankRanges⟩

/-- The characters of words. -/
def word : CharSet := ⟨Text.wordRanges⟩

/-- The characters that are not in a set. -/
def compl (s : CharSet) : CharSet := ⟨Text.complement s.ranges⟩

/-- Every character. -/
def any : CharSet := empty.compl

/-- The characters of either set. -/
def union (s t : CharSet) : CharSet :=
  ⟨Text.normalized (s.ranges.list ++ t.ranges.list)
    (List.forall_mem_append.mpr ⟨s.ranges.le_of_mem, t.ranges.le_of_mem⟩)⟩

/-- The characters of some of the sets. -/
def unions (sets : List CharSet) : CharSet :=
  ⟨Text.normalized (sets.flatMap (·.ranges.list)) fun r hr =>
    let ⟨s, _, hs⟩ := List.mem_flatMap.mp hr
    s.ranges.le_of_mem r hs⟩

/-- The characters of both sets. -/
def inter (s t : CharSet) : CharSet := (s.compl.union t.compl).compl

/-- The characters of the first set that are not in the second. -/
def diff (s t : CharSet) : CharSet := s.inter t.compl

/-- The characters of exactly one of the two sets. -/
def symmDiff (s t : CharSet) : CharSet := (s.diff t).union (t.diff s)

/-- The characters that differ from one of the set at most in case. -/
def ignoringCase (s : CharSet) : CharSet := ⟨Text.caseClosure s.ranges⟩

@[simp] theorem mem_single {c d : Char} : (single c).mem d = (d == c) := by
  rw [Bool.eq_iff_iff, mem, Text.inRanges_iff, beq_iff_eq]
  constructor
  · rintro ⟨_, hr, hle, hge⟩
    obtain rfl := List.mem_singleton.mp hr
    exact Char.toNat_inj.mp (Nat.le_antisymm hge hle)
  · rintro rfl
    exact ⟨_, List.mem_singleton.mpr rfl, Nat.le_refl _, Nat.le_refl _⟩

@[simp] theorem mem_compl {s : CharSet} {c : Char} : s.compl.mem c = !s.mem c := by
  have hlast : c.toNat ≤ Text.lastCodePoint := by
    rcases c.valid with h | ⟨-, h⟩
    · exact Nat.le_of_lt (Nat.lt_trans h (by decide))
    · exact Nat.le_of_lt_succ h
  exact Text.inRanges_complement hlast

end CharSet

end DocQuery.Runtime
