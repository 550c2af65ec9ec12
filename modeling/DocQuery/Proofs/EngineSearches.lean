import DocQuery.Runtime.Regex.Matching
import Mathlib.Data.List.Infix

/-!
# Searches of the engine

How the engine that the program runs with matches characters and repetitions of a set. A repetition
is a search that starts from what was found last and ends after as many rounds as the text has
positions (`Regex.Searching`). That these are enough needs the positions to be in order, the last of
which comes first (`Cursor.Ordered`), and every round keeps them so.

The main result, `Regex.exists_mem_run_times`, says that repeating a set takes positions to exactly
those behind any number of its characters.
-/

namespace DocQuery.Runtime

/-! ### Positions -/

namespace Cursor

variable {p q : Cursor} {s : CharSet} {cs : List Char}

theorem step?_eq_some_iff :
    p.step? s = some q ↔
      ∃ c rest, p.rest = c :: rest ∧ s.mem c = true ∧ q = ⟨p.index + 1, some c, rest⟩ := by
  rw [step?]
  rcases hrest : p.rest with _ | ⟨c, rest⟩
  · simp
  · change (if s.mem c = true then some _ else none) = some q ↔ _
    by_cases hmem : s.mem c = true
    · rw [if_pos hmem]
      refine ⟨fun h => ⟨c, rest, rfl, hmem, (Option.some.inj h).symm⟩, ?_⟩
      rintro ⟨_, _, heq, -, rfl⟩
      obtain ⟨rfl, rfl⟩ := List.cons.inj heq
      rfl
    · rw [if_neg hmem]
      refine ⟨nofun, ?_⟩
      rintro ⟨_, _, heq, hmem', -⟩
      obtain ⟨rfl, -⟩ := List.cons.inj heq
      exact absurd hmem' hmem

/-- A position stands in a text, behind some of its characters. -/
def StandsIn (cs : List Char) (p : Cursor) : Prop :=
  ∃ front, cs = front ++ p.rest ∧ p.index = front.length ∧ p.before = front.getLast?

/-- There is one position behind a number of characters. -/
private theorem StandsIn.eq_of_index (hp : p.StandsIn cs) (hq : q.StandsIn cs)
    (h : p.index = q.index) :
    p = q := by
  obtain ⟨front, rfl, hindex, hbefore⟩ := hp
  obtain ⟨front', heq, hindex', hbefore'⟩ := hq
  obtain ⟨rfl, hrest⟩ := List.append_inj heq (by omega)
  rcases p with ⟨i, b, rest⟩
  rcases q with ⟨j, b', rest'⟩
  obtain rfl : i = j := h
  obtain rfl : b = b' := hbefore.trans hbefore'.symm
  obtain rfl : rest = rest' := hrest
  rfl

/-- Later positions have less of the text behind them. -/
private theorem StandsIn.index_add_length (h : p.StandsIn cs) :
    p.index + p.rest.length = cs.length := by
  obtain ⟨front, rfl, hindex, -⟩ := h
  rw [List.length_append, hindex]

private theorem StandsIn.of_step? (h : p.StandsIn cs) (hstep : p.step? s = some q) :
    q.StandsIn cs := by
  obtain ⟨c, rest, hrest, -, rfl⟩ := step?_eq_some_iff.mp hstep
  obtain ⟨front, rfl, hindex, -⟩ := h
  refine ⟨front ++ [c], ?_, ?_, ?_⟩
  · rw [hrest, List.append_assoc]
    rfl
  · rw [List.length_append, hindex]
    rfl
  · exact List.getLast?_concat.symm

/-- Positions of a text, the last of which comes first. -/
structure Ordered (cs : List Char) (ps : List Cursor) : Prop where
  standsIn : ∀ p ∈ ps, p.StandsIn cs
  pairwise : ps.Pairwise fun p q => q.index < p.index

private theorem Ordered.sublist {ps qs : List Cursor} (h : Ordered cs qs) (hsub : ps.Sublist qs) :
    Ordered cs ps :=
  ⟨fun p hp => h.standsIn p (hsub.subset hp), h.pairwise.sublist hsub⟩

/-- Moving on keeps the order. -/
theorem Ordered.step {ps : List Cursor} (h : Ordered cs ps) (s : CharSet) :
    Ordered cs (ps.filterMap (·.step? s)) := by
  refine ⟨fun q hq => ?_, h.pairwise.filterMap _ fun p q hlt p' hp q' hq => ?_⟩
  · obtain ⟨p, hp, hstep⟩ := List.mem_filterMap.mp hq
    exact (h.standsIn p hp).of_step? hstep
  · obtain ⟨_, _, -, -, rfl⟩ := step?_eq_some_iff.mp hp
    obtain ⟨_, _, -, -, rfl⟩ := step?_eq_some_iff.mp hq
    exact Nat.succ_lt_succ hlt

/-! ### Sets of positions -/

/-- What is left of positions stands in their order. -/
private theorem exists_sublist_of_lessOnto (kept ps qs : List Cursor) :
    ∃ l, l.Sublist ps ∧ lessOnto kept ps qs = kept.reverse ++ l := by
  fun_induction lessOnto kept ps qs with
  | case1 kept => exact ⟨[], .slnil, (List.append_nil _).symm⟩
  | case2 kept ps => exact ⟨ps, .refl ps, rfl⟩
  | case3 kept p ps q qs h ih =>
    obtain ⟨l, hl, heq⟩ := ih
    exact ⟨p :: l, hl.cons_cons p, by rw [heq, List.reverse_cons, List.append_assoc]; rfl⟩
  | case4 kept p ps q qs h h' ih => exact ih
  | case5 kept p ps q qs h h' ih =>
    obtain ⟨l, hl, heq⟩ := ih
    exact ⟨l, hl.cons p, heq⟩

private theorem less_sublist (ps qs : List Cursor) : (less ps qs).Sublist ps := by
  obtain ⟨l, hl, heq⟩ := exists_sublist_of_lessOnto [] ps qs
  rw [less, heq]
  exact hl

private theorem mem_lessOnto {kept ps qs : List Cursor} (h : p ∈ kept ∨ p ∈ ps) :
    p ∈ lessOnto kept ps qs ∨ ∃ q ∈ qs, q.index = p.index := by
  fun_induction lessOnto kept ps qs <;> grind

/-- Only positions that are taken away are lost. -/
private theorem mem_less {ps : List Cursor} (qs : List Cursor) (hp : p ∈ ps) :
    p ∈ less ps qs ∨ ∃ q ∈ qs, q.index = p.index :=
  mem_lessOnto (.inr hp)

private theorem of_mem_mergeOnto {taken ps qs : List Cursor} (h : p ∈ mergeOnto taken ps qs) :
    p ∈ taken ∨ p ∈ ps ∨ p ∈ qs := by
  fun_induction mergeOnto taken ps qs <;> grind

/-- The positions of the first list are all kept. -/
private theorem mem_mergeOnto_left {taken ps qs : List Cursor} (h : p ∈ taken ∨ p ∈ ps) :
    p ∈ mergeOnto taken ps qs := by
  fun_induction mergeOnto taken ps qs <;> grind

/-- Of the second, only those are lost that the first has. -/
private theorem mem_mergeOnto_right {taken ps qs : List Cursor} (h : p ∈ qs) :
    p ∈ mergeOnto taken ps qs ∨ ∃ q ∈ ps, q.index = p.index := by
  have htaken : ∀ {taken ps qs : List Cursor}, p ∈ taken → p ∈ mergeOnto taken ps qs :=
    fun h => mem_mergeOnto_left (.inl h)
  fun_induction mergeOnto taken ps qs <;> grind

/-- Behind other positions, each position of a list in order comes before the rest of it. -/
private theorem index_lt_of_pairwise {front qs : List Cursor}
    (h : (front ++ q :: qs).Pairwise fun p q => q.index < p.index) : ∀ r ∈ qs, r.index < q.index :=
  (List.pairwise_cons.mp (List.pairwise_append.mp h).2.1).1

private theorem pairwise_insert {front ps qs : List Cursor}
    (hps : (front ++ p :: ps).Pairwise fun p q => q.index < p.index)
    (hqs : (front ++ qs).Pairwise fun p q => q.index < p.index) (h : ∀ q ∈ qs, q.index < p.index) :
    (front ++ p :: qs).Pairwise fun p q => q.index < p.index := by
  rw [List.pairwise_append, List.pairwise_cons] at hps ⊢
  rw [List.pairwise_append] at hqs
  obtain ⟨hfront, -, hbefore⟩ := hps
  refine ⟨hfront, ⟨h, hqs.2.1⟩, fun q hq r hr => ?_⟩
  rcases List.mem_cons.mp hr with rfl | hr
  · exact hbefore q hq r List.mem_cons_self
  · exact hqs.2.2 q hq r hr

/-- Positions in order are merged into positions in order. -/
private theorem pairwise_mergeOnto {taken ps qs : List Cursor}
    (hps : (taken.reverse ++ ps).Pairwise fun p q => q.index < p.index)
    (hqs : (taken.reverse ++ qs).Pairwise fun p q => q.index < p.index) :
    (mergeOnto taken ps qs).Pairwise fun p q => q.index < p.index := by
  fun_induction mergeOnto taken ps qs with
  | case1 taken qs => exact hqs
  | case2 taken ps hne => exact hps
  | case3 taken p ps q qs hlt ih =>
    have hqs' := pairwise_insert hps hqs fun r hr => by
      rcases List.mem_cons.mp hr with rfl | hr
      · exact hlt
      · exact Nat.lt_trans (index_lt_of_pairwise hqs r hr) hlt
    rw [List.reverse_cons, List.append_assoc, List.append_assoc] at ih
    exact ih hps hqs'
  | case4 taken p ps q qs hnot hlt ih =>
    have hps' := pairwise_insert hqs hps fun r hr => by
      rcases List.mem_cons.mp hr with rfl | hr
      · exact hlt
      · exact Nat.lt_trans (index_lt_of_pairwise hps r hr) hlt
    rw [List.reverse_cons, List.append_assoc, List.append_assoc] at ih
    exact ih hps' hqs
  | case5 taken p ps q qs hnot hnot' ih =>
    have hsame : q.index = p.index :=
      Nat.le_antisymm (Nat.le_of_not_lt hnot') (Nat.le_of_not_lt hnot)
    have hqs' := pairwise_insert hps
      (hqs.sublist ((List.sublist_cons_self q qs).append_left _)) fun r hr =>
        hsame ▸ index_lt_of_pairwise hqs r hr
    rw [List.reverse_cons, List.append_assoc, List.append_assoc] at ih
    exact ih hps hqs'

namespace Ordered

variable {ps qs : List Cursor}

private theorem less (h : Ordered cs ps) (qs : List Cursor) : Ordered cs (less ps qs) :=
  h.sublist (less_sublist ps qs)

/-- What is taken away is not lost otherwise. -/
private theorem mem_less_or (hps : Ordered cs ps) (hqs : Ordered cs qs) (hp : p ∈ ps) :
    p ∈ Cursor.less ps qs ∨ p ∈ qs := by
  rcases mem_less qs hp with h | ⟨q, hq, hindex⟩
  · exact .inl h
  · exact .inr ((hqs.standsIn q hq).eq_of_index (hps.standsIn p hp) hindex ▸ hq)

private theorem merge (hps : Ordered cs ps) (hqs : Ordered cs qs) : Ordered cs (merge ps qs) := by
  refine ⟨fun p hp => ?_, pairwise_mergeOnto hps.pairwise hqs.pairwise⟩
  rcases of_mem_mergeOnto hp with h | h | h
  · cases h
  · exact hps.standsIn p h
  · exact hqs.standsIn p h

private theorem mem_merge_iff (hps : Ordered cs ps) (hqs : Ordered cs qs) :
    p ∈ Cursor.merge ps qs ↔ p ∈ ps ∨ p ∈ qs := by
  constructor
  · exact fun h => (of_mem_mergeOnto h).resolve_left List.not_mem_nil
  · rintro (h | h)
    · exact mem_mergeOnto_left (.inr h)
    · have hright : p ∈ mergeOnto [] ps qs ∨ ∃ q ∈ ps, q.index = p.index := mem_mergeOnto_right h
      rcases hright with hmem | ⟨q, hq, hindex⟩
      · exact hmem
      · obtain rfl := (hps.standsIn q hq).eq_of_index (hqs.standsIn p h) hindex
        exact mem_mergeOnto_left (.inr hq)

/-- No position has more of the text behind it than the last of the list. -/
private theorem length_lt_span (h : Ordered cs ps) (hp : p ∈ ps) : p.rest.length < span ps := by
  obtain ⟨init, last, rfl⟩ : ∃ init last, ps = init ++ [last] :=
    (List.eq_nil_or_concat' ps).resolve_left (List.ne_nil_of_mem hp)
  have hlast := (h.standsIn last (by simp)).index_add_length
  have hstands := (h.standsIn p hp).index_add_length
  rw [span, List.getLast?_concat]
  rcases List.mem_append.mp hp with hp | hp
  · have hlt := (List.pairwise_append.mp h.pairwise).2.2 p hp last List.mem_cons_self
    change p.rest.length < last.rest.length + 1
    omega
  · obtain rfl := List.mem_singleton.mp hp
    exact Nat.lt_succ_self _

end Ordered

private theorem ordered_positionsOnto {front rest : List Char} {ps : List Cursor}
    (h : Ordered (front ++ rest) ps) (hlt : ∀ p ∈ ps, p.index < front.length) :
    Ordered (front ++ rest) (positionsOnto ps front.length front.getLast? rest) := by
  have hcons : Ordered (front ++ rest) (⟨front.length, front.getLast?, rest⟩ :: ps) :=
    ⟨List.forall_mem_cons.mpr ⟨⟨front, rfl, rfl, rfl⟩, h.standsIn⟩,
      List.pairwise_cons.mpr ⟨hlt, h.pairwise⟩⟩
  induction rest generalizing front ps with
  | nil => exact hcons
  | cons c rest ih =>
    have hassoc : front ++ c :: rest = front ++ [c] ++ rest := by
      rw [List.append_assoc, List.singleton_append]
    have hlength : front.length + 1 = (front ++ [c]).length := by simp
    have hlt' : ∀ p ∈ Cursor.mk front.length front.getLast? (c :: rest) :: ps,
        p.index < (front ++ [c]).length := by
      rw [← hlength]
      exact List.forall_mem_cons.mpr
        ⟨Nat.lt_succ_self _, fun p hp => Nat.lt_succ_of_lt (hlt p hp)⟩
    rw [hassoc] at hcons ⊢
    rw [positionsOnto, hlength, ← List.getLast?_concat (a := c) (l := front)]
    exact ih hcons hlt' ⟨List.forall_mem_cons.mpr ⟨⟨_, rfl, rfl, rfl⟩, hcons.standsIn⟩,
      List.pairwise_cons.mpr ⟨hlt', hcons.pairwise⟩⟩

/-- **The positions of a text** are in order, -/
theorem ordered_ofText (text : String) : Ordered text.toList (ofText text) := by
  have hnone : Ordered ([] ++ text.toList) [] := ⟨nofun, .nil⟩
  exact ordered_positionsOnto hnone nofun

private theorem subset_positionsOnto (ps : List Cursor) (index : Nat) (before : Option Char)
    (cs : List Char) : ps ⊆ positionsOnto ps index before cs := by
  induction cs generalizing ps index before with
  | nil => exact List.subset_cons_self _ ps
  | cons c cs ih => exact List.Subset.trans (List.subset_cons_self _ ps) (ih _ _ _)

private theorem exists_mem_positionsOnto {rest cs : List Char} (h : rest <:+ cs) (ps : List Cursor)
    (index : Nat) (before : Option Char) :
    ∃ p ∈ positionsOnto ps index before cs, p.rest = rest := by
  induction cs generalizing ps index before with
  | nil =>
    obtain rfl := List.suffix_nil.mp h
    exact ⟨_, List.mem_cons_self, rfl⟩
  | cons c cs ih =>
    rcases List.suffix_cons_iff.mp h with rfl | h
    · exact ⟨_, subset_positionsOnto _ _ _ cs List.mem_cons_self, rfl⟩
    · exact ih h _ _ _

/-- and there is one before every rest of it. -/
theorem exists_mem_ofText_iff {text : String} {rest : List Char} :
    (∃ p ∈ ofText text, p.rest = rest) ↔ rest <:+ text.toList := by
  constructor
  · rintro ⟨p, hp, rfl⟩
    obtain ⟨front, htext, -, -⟩ := (ordered_ofText text).standsIn p hp
    exact ⟨front, htext.symm⟩
  · exact fun h => exists_mem_positionsOnto h [] 0 none

end Cursor

namespace Regex

open Cursor (Ordered)

/-! ### Searches -/

section Search

variable {cs : List Char} {s : CharSet} {n : Nat} {found latest : List Cursor} {p q : Cursor}

/-- A search for the positions that are reached by moving past characters of a set: what was found
is closed, but for what was found last, and the rounds that are left are enough for that. -/
structure Searching (cs : List Char) (s : CharSet) (n : Nat) (found latest : List Cursor) :
    Prop where
  foundOrdered : Ordered cs found
  latestOrdered : Ordered cs latest
  closed : ∀ p ∈ found, p ∈ latest ∨ ∀ q, p.step? s = some q → q ∈ found
  enough : ∀ p ∈ latest, p.rest.length < n

/-- A round finds what is reached from what was found last. -/
private theorem Searching.mem_or_mem (h : Searching cs s n found latest) (hp : p ∈ found)
    (hstep : p.step? s = some q) : q ∈ found ∨ q ∈ Cursor.less (run (.set s) latest) found := by
  rcases h.closed p hp with hlatest | hclosed
  · have hq : q ∈ run (.set s) latest := by
      rw [run]
      exact List.mem_filterMap.mpr ⟨p, hlatest, hstep⟩
    rw [run] at hq ⊢
    exact ((h.latestOrdered.step s).mem_less_or h.foundOrdered hq).symm
  · exact .inl (hclosed q hstep)

/-- After a round the search goes on from what is new. -/
private theorem Searching.round (h : Searching cs s (n + 1) found latest) :
    Searching cs s n (Cursor.merge found (Cursor.less (run (.set s) latest) found))
      (Cursor.less (run (.set s) latest) found) := by
  have hnew : Ordered cs (Cursor.less (run (.set s) latest) found) := by
    rw [run]
    exact (h.latestOrdered.step s).less found
  have hmem : ∀ {p : Cursor}, p ∈ Cursor.merge found (Cursor.less (run (.set s) latest) found) ↔
      p ∈ found ∨ p ∈ Cursor.less (run (.set s) latest) found := h.foundOrdered.mem_merge_iff hnew
  refine ⟨h.foundOrdered.merge hnew, hnew, fun p hp => ?_, fun q hq => ?_⟩
  · rcases hmem.mp hp with hp | hp
    · exact .inr fun q hstep => hmem.mpr (h.mem_or_mem hp hstep)
    · exact .inl hp
  · have hq := (Cursor.less_sublist _ found).subset hq
    rw [run] at hq
    obtain ⟨p, hp, hstep⟩ := List.mem_filterMap.mp hq
    obtain ⟨c, rest, hrest, -, rfl⟩ := Cursor.step?_eq_some_iff.mp hstep
    have hlt := h.enough p hp
    rw [hrest, List.length_cons] at hlt
    exact Nat.lt_of_succ_lt_succ hlt

/-- **A search** ends with positions in order, among them those it began with, from which no other
is reached. -/
theorem Searching.spread (h : Searching cs s n found latest) :
    Ordered cs (spread (run (.set s)) n found latest) ∧
      found ⊆ spread (run (.set s)) n found latest ∧
      ∀ p ∈ spread (run (.set s)) n found latest, ∀ q, p.step? s = some q →
        q ∈ spread (run (.set s)) n found latest := by
  induction n generalizing found latest with
  | zero =>
    refine ⟨h.foundOrdered, List.Subset.refl _, fun p hp => ?_⟩
    exact (h.closed p hp).resolve_left fun hlatest =>
      absurd (h.enough p hlatest) (Nat.not_lt_zero _)
  | succ n ih =>
    rw [Regex.spread]
    have hround := h.round
    have hsubset : found ⊆ Cursor.merge found (Cursor.less (run (.set s) latest) found) :=
      fun p hp => (h.foundOrdered.mem_merge_iff hround.latestOrdered).mpr (.inl hp)
    split
    · next hnone =>
      refine ⟨h.foundOrdered, List.Subset.refl _, fun p hp q hstep => ?_⟩
      exact (h.mem_or_mem hp hstep).resolve_right (hnone ▸ List.not_mem_nil)
    · next p ps hsome =>
      rw [hsome] at hround hsubset
      obtain ⟨hordered, hkept, hclosed⟩ := ih hround
      exact ⟨hordered, List.Subset.trans hsubset hkept, hclosed⟩

/-- A search begins with all that was found. -/
private theorem Searching.begin {ps : List Cursor} (h : Ordered cs ps) :
    Searching cs s (Cursor.span ps) ps ps :=
  ⟨h, h, fun _ hp => .inl hp, fun _ hp => h.length_lt_span hp⟩

/-- What moving on keeps holds of all that a search finds. -/
private theorem forall_mem_spread {P : Cursor → Prop}
    (hP : ∀ p q, P p → p.step? s = some q → P q) (n : Nat) {found latest : List Cursor}
    (hfound : ∀ p ∈ found, P p) (hlatest : ∀ p ∈ latest, P p) :
    ∀ q ∈ spread (run (.set s)) n found latest, P q := by
  induction n generalizing found latest with
  | zero => exact hfound
  | succ n ih =>
    rw [Regex.spread]
    split
    · exact hfound
    · next p ps hless =>
      have hnew : ∀ q ∈ p :: ps, P q := by
        intro q hq
        have hq := (Cursor.less_sublist _ found).subset (hless ▸ hq)
        rw [run] at hq
        obtain ⟨o, ho, hstep⟩ := List.mem_filterMap.mp hq
        exact hP o q (hlatest o ho) hstep
      refine ih (fun q hq => ?_) hnew
      exact ((Cursor.of_mem_mergeOnto hq).resolve_left List.not_mem_nil).elim (hfound q) (hnew q)

/-- Positions from which no other is reached have one behind any number of characters. -/
private theorem exists_mem_of_closed {ps : List Cursor} {passed rest : List Char}
    (hclosed : ∀ p ∈ ps, ∀ q, p.step? s = some q → q ∈ ps) (hp : p ∈ ps)
    (hpassed : ∀ c ∈ passed, s.mem c = true) (hrest : p.rest = passed ++ rest) :
    ∃ q ∈ ps, q.rest = rest := by
  induction passed generalizing p with
  | nil => exact ⟨p, hp, hrest⟩
  | cons c passed ih =>
    obtain ⟨hc, hpassed⟩ := List.forall_mem_cons.mp hpassed
    have hstep : p.step? s = some ⟨p.index + 1, some c, passed ++ rest⟩ :=
      Cursor.step?_eq_some_iff.mpr ⟨c, passed ++ rest, hrest, hc, rfl⟩
    exact ih (hclosed p hp _ hstep) hpassed rfl

/-- **Repeating a set** takes positions to those behind any number of its characters. -/
theorem exists_mem_run_times {ps : List Cursor} (h : Ordered cs ps) :
    Ordered cs (run (.times (.set s) 0 none) ps) ∧
      ∀ rest, (∃ q ∈ run (.times (.set s) 0 none) ps, q.rest = rest) ↔
        ∃ p ∈ ps, ∃ passed, (∀ c ∈ passed, s.mem c = true) ∧ p.rest = passed ++ rest := by
  have hrun : run (.times (.set s) 0 none) ps =
      Regex.spread (run (.set s)) (Cursor.span ps) ps ps := by
    rw [run, Nat.zero_min]
    rfl
  obtain ⟨hordered, hkept, hclosed⟩ := (Searching.begin h (s := s)).spread
  rw [hrun]
  refine ⟨hordered, fun rest => ⟨?_, ?_⟩⟩
  · rintro ⟨q, hq, rfl⟩
    have hsame : ∀ p ∈ ps, ∃ o ∈ ps, ∃ passed, (∀ c ∈ passed, s.mem c = true) ∧
        o.rest = passed ++ p.rest := fun p hp => ⟨p, hp, [], nofun, rfl⟩
    refine forall_mem_spread ?_ _ hsame hsame q hq
    rintro p q ⟨o, ho, passed, hpassed, hrest⟩ hstep
    obtain ⟨c, rest, hp, hmem, rfl⟩ := Cursor.step?_eq_some_iff.mp hstep
    refine ⟨o, ho, passed ++ [c], List.forall_mem_append.mpr ⟨hpassed, by simpa using hmem⟩, ?_⟩
    rw [hrest, hp, List.append_assoc]
    rfl
  · rintro ⟨p, hp, passed, hpassed, hrest⟩
    exact exists_mem_of_closed hclosed (hkept hp) hpassed hrest

end Search

end Regex

end DocQuery.Runtime
