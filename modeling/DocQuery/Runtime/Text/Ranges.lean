/-!
# Classes of characters given by ranges

Closed ranges of code points, with membership and the operations on sets that are given so. The
ranges of a class are in order and apart (`Ranges`), and so membership can be decided by looking for
the first range that is not passed (`inRanges_iff`).
-/

namespace DocQuery.Runtime.Text

/-- Whether closed ranges are in order, the first no earlier than a point, with a gap between any
two. -/
def ascendingFrom (least : Nat) : List (Nat × Nat) → Bool
  | [] => true
  | r :: rs => least ≤ r.1 && r.1 ≤ r.2 && ascendingFrom (r.2 + 2) rs

@[simp] theorem ascendingFrom_cons {least : Nat} {r : Nat × Nat} {rs : List (Nat × Nat)} :
    ascendingFrom least (r :: rs) = true ↔
      least ≤ r.1 ∧ r.1 ≤ r.2 ∧ ascendingFrom (r.2 + 2) rs = true := by
  rw [ascendingFrom, Bool.and_eq_true, Bool.and_eq_true, decide_eq_true_iff, decide_eq_true_iff,
    and_assoc]

/-- Ranges that begin behind a point begin behind any earlier one. -/
private theorem ascendingFrom_of_le {least least' : Nat} (hle : least' ≤ least)
    {rs : List (Nat × Nat)} (h : ascendingFrom least rs = true) :
    ascendingFrom least' rs = true := by
  rcases rs with _ | ⟨r, rs⟩
  · rfl
  · obtain ⟨hfirst, hrest⟩ := ascendingFrom_cons.mp h
    exact ascendingFrom_cons.mpr ⟨Nat.le_trans hle hfirst, hrest⟩

/-- Every range in order holds its ends and begins behind the point. -/
private theorem le_of_mem_ascendingFrom {least : Nat} {rs : List (Nat × Nat)} {r : Nat × Nat}
    (h : ascendingFrom least rs = true) (hr : r ∈ rs) : least ≤ r.1 ∧ r.1 ≤ r.2 := by
  induction rs generalizing least with
  | nil => cases hr
  | cons s rs ih =>
    obtain ⟨hfirst, hholds, hrest⟩ := ascendingFrom_cons.mp h
    rcases List.mem_cons.mp hr with rfl | hr
    · exact ⟨hfirst, hholds⟩
    · obtain ⟨hle, hle'⟩ := ih hrest hr
      exact ⟨by omega, hle'⟩

/-- Closed ranges of code points, in order and with a gap between any two. -/
structure Ranges where
  list : List (Nat × Nat)
  ascending : ascendingFrom 0 list = true
deriving DecidableEq

namespace Ranges

/-- No range. -/
def empty : Ranges := ⟨[], rfl⟩

/-- One range. -/
def one (first last : Nat) (h : first ≤ last) : Ranges :=
  ⟨[(first, last)], ascendingFrom_cons.mpr ⟨Nat.zero_le _, h, rfl⟩⟩

/-- Every range holds its ends. -/
theorem le_of_mem (rs : Ranges) : ∀ r ∈ rs.list, r.1 ≤ r.2 := fun _ hr =>
  (le_of_mem_ascendingFrom rs.ascending hr).2

end Ranges

/-! ### Membership -/

/-- Whether a point lies in one of closed ranges in order; those that begin behind it are not
looked at. -/
def liesIn : List (Nat × Nat) → Nat → Bool
  | [], _ => false
  | r :: rs, n => if n < r.1 then false else n ≤ r.2 || liesIn rs n

/-- Whether a code point lies in one of the ranges. -/
def inRanges (rs : Ranges) (n : Nat) : Bool := liesIn rs.list n

theorem liesIn_iff {least : Nat} {rs : List (Nat × Nat)} (h : ascendingFrom least rs = true)
    {n : Nat} : liesIn rs n = true ↔ ∃ r ∈ rs, r.1 ≤ n ∧ n ≤ r.2 := by
  induction rs generalizing least with
  | nil => exact ⟨nofun, nofun⟩
  | cons r rs ih =>
    obtain ⟨-, hholds, hrest⟩ := ascendingFrom_cons.mp h
    rw [liesIn]
    simp only [List.mem_cons, exists_eq_or_imp]
    by_cases hn : n < r.1
    · rw [if_pos hn]
      refine ⟨nofun, ?_⟩
      rintro (⟨hle, -⟩ | ⟨s, hs, hle, -⟩)
      · omega
      · have hbehind := (le_of_mem_ascendingFrom hrest hs).1
        omega
    · rw [if_neg hn, Bool.or_eq_true, decide_eq_true_iff, ih hrest]
      exact or_congr_left ⟨fun h => ⟨Nat.le_of_not_lt hn, h⟩, fun h => h.2⟩

/-- **Membership**: as the ranges are in order, none that holds the point is missed. -/
theorem inRanges_iff {rs : Ranges} {n : Nat} :
    inRanges rs n = true ↔ ∃ r ∈ rs.list, r.1 ≤ n ∧ n ≤ r.2 :=
  liesIn_iff rs.ascending

/-! ### Unions -/

/-- Join ranges that overlap or touch, given in order of their first points. -/
def coalesce : List (Nat × Nat) → List (Nat × Nat)
  | [] => []
  | [r] => [r]
  | r :: s :: rest =>
    if s.1 ≤ r.2 + 1 then coalesce ((r.1, max r.2 s.2) :: rest) else r :: coalesce (s :: rest)
termination_by rs => rs.length

/-- Joining what overlaps or touches leaves gaps between the rest. -/
private theorem ascendingFrom_coalesce {least : Nat} {ranges : List (Nat × Nat)}
    (hsorted : ranges.Pairwise fun r s => r.1 ≤ s.1) (hholds : ∀ r ∈ ranges, r.1 ≤ r.2)
    (hleast : ∀ r ∈ ranges, least ≤ r.1) : ascendingFrom least (coalesce ranges) = true := by
  induction ranges using coalesce.induct generalizing least with
  | case1 =>
    rw [coalesce]
    rfl
  | case2 r =>
    rw [coalesce, ascendingFrom_cons]
    exact ⟨hleast r List.mem_cons_self, hholds r List.mem_cons_self, rfl⟩
  | case3 r s rest htouch ih =>
    obtain ⟨hr, hsorted⟩ := List.pairwise_cons.mp hsorted
    obtain ⟨hrholds, hholds⟩ := List.forall_mem_cons.mp hholds
    obtain ⟨hrleast, hleast⟩ := List.forall_mem_cons.mp hleast
    rw [coalesce, if_pos htouch]
    refine ih (List.pairwise_cons.mpr ⟨fun t ht => hr t (List.mem_cons_of_mem s ht),
      (List.pairwise_cons.mp hsorted).2⟩) (List.forall_mem_cons.mpr ⟨?_, fun t ht =>
      hholds t (List.mem_cons_of_mem s ht)⟩) (List.forall_mem_cons.mpr ⟨hrleast, fun t ht =>
      hleast t (List.mem_cons_of_mem s ht)⟩)
    exact Nat.le_trans hrholds (Nat.le_max_left _ _)
  | case4 r s rest hapart ih =>
    obtain ⟨-, hsorted⟩ := List.pairwise_cons.mp hsorted
    obtain ⟨hrholds, hholds⟩ := List.forall_mem_cons.mp hholds
    have hbehind : ∀ t ∈ s :: rest, r.2 + 2 ≤ t.1 := by
      intro t ht
      rcases List.mem_cons.mp ht with rfl | ht
      · omega
      · have hle := (List.pairwise_cons.mp hsorted).1 t ht
        omega
    rw [coalesce, if_neg hapart, ascendingFrom_cons]
    exact ⟨hleast r List.mem_cons_self, hrholds, ih hsorted hholds hbehind⟩

/-- The ascending ranges of what lies in one of the given ranges. -/
def normalized (ranges : List (Nat × Nat)) (hholds : ∀ r ∈ ranges, r.1 ≤ r.2) : Ranges where
  list := coalesce (ranges.mergeSort fun r s => r.1 ≤ s.1)
  ascending := by
    have htrans : ∀ r s t : Nat × Nat, decide (r.1 ≤ s.1) = true → decide (s.1 ≤ t.1) = true →
        decide (r.1 ≤ t.1) = true := by
      intro r s t h h'
      exact decide_eq_true (Nat.le_trans (of_decide_eq_true h) (of_decide_eq_true h'))
    have htotal : ∀ r s : Nat × Nat, (decide (r.1 ≤ s.1) || decide (s.1 ≤ r.1)) = true := by
      intro r s
      simpa using Nat.le_total r.1 s.1
    have hsorted := ranges.pairwise_mergeSort htrans htotal
    exact ascendingFrom_coalesce (hsorted.imp of_decide_eq_true)
      (fun r hr => hholds r (List.mem_mergeSort.mp hr)) fun _ _ => Nat.zero_le _

/-- The ranges of the given points. -/
def points (ns : List Nat) : List (Nat × Nat) := ns.map fun n => (n, n)

theorem le_of_mem_points {ns : List Nat} : ∀ r ∈ points ns, r.1 ≤ r.2 :=
  List.forall_mem_map.mpr fun n _ => Nat.le_refl n

/-! ### Complements -/

/-- The last code point. -/
def lastCodePoint : Nat := 0x10FFFF

/-- The ranges of the code points from one on that lie in none of the given ascending ranges. -/
def gapsFrom (start : Nat) : List (Nat × Nat) → List (Nat × Nat)
  | [] => if start ≤ lastCodePoint then [(start, lastCodePoint)] else []
  | r :: rs =>
    if start < r.1 then (start, r.1 - 1) :: gapsFrom (r.2 + 1) rs else gapsFrom (r.2 + 1) rs

/-- The gaps between ranges in order are in order, with the ranges between them. -/
private theorem ascendingFrom_gapsFrom {start : Nat} {rs : List (Nat × Nat)}
    (h : ascendingFrom start rs = true) : ascendingFrom start (gapsFrom start rs) = true := by
  induction rs generalizing start with
  | nil =>
    rw [gapsFrom]
    split
    · next hle => exact ascendingFrom_cons.mpr ⟨Nat.le_refl _, hle, rfl⟩
    · rfl
  | cons r rs ih =>
    obtain ⟨hfirst, hholds, hrest⟩ := ascendingFrom_cons.mp h
    have hgaps := ih (ascendingFrom_of_le (Nat.le_succ _) hrest)
    rw [gapsFrom]
    split
    · next hlt =>
      rw [ascendingFrom_cons]
      exact ⟨Nat.le_refl _, by omega, ascendingFrom_of_le (by omega) hgaps⟩
    · exact ascendingFrom_of_le (by omega) hgaps

/-- The ranges of what lies in none of the given ascending ranges. -/
def complement (rs : Ranges) : Ranges :=
  ⟨gapsFrom 0 rs.list, ascendingFrom_gapsFrom rs.ascending⟩

private theorem liesIn_gapsFrom {start : Nat} {rs : List (Nat × Nat)}
    (h : ascendingFrom start rs = true) {n : Nat} (hn : n ≤ lastCodePoint) :
    liesIn (gapsFrom start rs) n = (decide (start ≤ n) && !liesIn rs n) := by
  induction rs generalizing start with
  | nil =>
    rw [gapsFrom]
    split <;> grind [liesIn]
  | cons r rs ih =>
    obtain ⟨hfirst, hholds, hrest⟩ := ascendingFrom_cons.mp h
    have hgaps := ih (ascendingFrom_of_le (Nat.le_succ _) hrest)
    rw [gapsFrom]
    split <;> grind [liesIn]

/-- A code point lies in the complement if it lies in none of the ranges. -/
theorem inRanges_complement {rs : Ranges} {n : Nat} (hn : n ≤ lastCodePoint) :
    inRanges (complement rs) n = !inRanges rs n :=
  (liesIn_gapsFrom rs.ascending hn).trans (Bool.true_and _)

end DocQuery.Runtime.Text
