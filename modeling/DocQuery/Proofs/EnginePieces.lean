import DocQuery.Proofs.EngineSearches
import DocQuery.Proofs.TextPatterns
import DocQuery.Runtime.Regex.Engine
import Mathlib.Algebra.Group.Action.Defs
import Mathlib.Algebra.Order.BigOperators.Group.List
import Mathlib.Algebra.Order.Ring.Nat

/-!
# The engine reads patterns of texts

The engine that the program runs with satisfies what is asked of one: `readsPieces_engine`. Patterns
of pieces are read piece by piece (`Regex.parse?_pieces`), and a piece takes positions to those
behind what it matches (`Regex.exists_mem_run_piece`). They are admitted as long as the pieces are
small enough together (`admits_pattern_iff`).
-/

namespace DocQuery.Runtime

namespace Regex

open Piece (isSpecial)

/-! ### One after another -/

private theorem runAll_append (rs rs' : List Regex) (ps : List Cursor) :
    runAll (rs ++ rs') ps = runAll rs' (runAll rs ps) := by
  induction rs generalizing ps with
  | nil => rfl
  | cons r rs ih => exact ih (run r ps)

/-- Putting patterns one after another matches them one after another. -/
private theorem run_concat (rs : List Regex) (ps : List Cursor) :
    run (concat rs) ps = runAll rs ps := by
  have hfactors : ∀ (r : Regex) (ps : List Cursor), runAll (factors r) ps = run r ps := by
    intro r ps
    cases r <;> simp only [factors, runAll, run]
  have hall : ∀ (rs : List Regex) (ps : List Cursor),
      runAll (rs.flatMap factors) ps = runAll rs ps := by
    intro rs
    induction rs with
    | nil => exact fun _ => rfl
    | cons r rs ih =>
      intro ps
      rw [List.flatMap_cons, runAll_append, hfactors, ih, runAll]
  rw [← hall, concat]
  split
  · next h => rw [h, run, runAll]
  · next r h => rw [h, runAll, runAll]
  · rw [run]

/-! ### Matching pieces -/

/-- What a piece is read as. -/
def ofPiece : Piece → Nested Regex
  | .char c => .leaf (.set (.single c))
  | .gap => (Nested.leaf (.set (dot {}))).times 0 none

/-- What pieces are read as, one after another. -/
def ofPieces (pieces : List Piece) : Regex := concat (pieces.map fun p => (ofPiece p).value)

section Matching

variable {cs : List Char} {ps : List Cursor}

/-- **A piece** takes positions to those behind what it matches. -/
theorem exists_mem_run_piece (h : Cursor.Ordered cs ps) (p : Piece) :
    Cursor.Ordered cs (run (ofPiece p).value ps) ∧
      ∀ rest, (∃ q ∈ run (ofPiece p).value ps, q.rest = rest) ↔
        ∃ o ∈ ps, ∃ passed, p.Matches passed ∧ o.rest = passed ++ rest := by
  cases p with
  | char c =>
    change Cursor.Ordered cs (run (.set (.single c)) ps) ∧ ∀ rest,
      (∃ q ∈ run (.set (.single c)) ps, q.rest = rest) ↔ _
    rw [run]
    refine ⟨h.step _, fun rest => ⟨?_, ?_⟩⟩
    · rintro ⟨q, hq, rfl⟩
      obtain ⟨o, ho, hstep⟩ := List.mem_filterMap.mp hq
      obtain ⟨d, rest, hrest, hd, rfl⟩ := Cursor.step?_eq_some_iff.mp hstep
      obtain rfl : d = c := by simpa using hd
      exact ⟨o, ho, [d], rfl, hrest⟩
    · rintro ⟨o, ho, _, rfl, hrest⟩
      refine ⟨⟨o.index + 1, some c, rest⟩, List.mem_filterMap.mpr ⟨o, ho, ?_⟩, rfl⟩
      exact Cursor.step?_eq_some_iff.mpr ⟨c, rest, hrest, by simp, rfl⟩
  | gap =>
    have hdot : ∀ passed : List Char,
        (∀ c ∈ passed, (dot {}).mem c = true) ↔ '\n' ∉ passed := by
      intro passed
      have hmem : ∀ c, (dot {}).mem c = true ↔ c ≠ '\n' := by
        simp [dot]
      simp only [hmem]
      exact ⟨fun h hc => h _ hc rfl, fun h c hc heq => h (heq ▸ hc)⟩
    obtain ⟨hordered, hrest⟩ := exists_mem_run_times (s := dot {}) h
    refine ⟨hordered, fun rest => (hrest rest).trans ?_⟩
    simp only [hdot]
    rfl

/-- **Pieces one after another** take positions to those behind what they match. -/
theorem exists_mem_runAll_pieces (h : Cursor.Ordered cs ps) (pieces : List Piece)
    (rest : List Char) :
    (∃ q ∈ runAll (pieces.map fun p => (ofPiece p).value) ps, q.rest = rest) ↔
      ∃ o ∈ ps, ∃ passed, Piece.MatchesAll pieces passed ∧ o.rest = passed ++ rest := by
  induction pieces generalizing ps with
  | nil => simp [runAll, Piece.matchesAll_nil]
  | cons p pieces ih =>
    obtain ⟨hordered, hrest⟩ := exists_mem_run_piece h p
    rw [List.map_cons, runAll, ih hordered]
    constructor
    · rintro ⟨o, ho, passed, hpassed, heq⟩
      obtain ⟨start, hstart, front, hfront, hsplit⟩ := (hrest _).mp ⟨o, ho, rfl⟩
      exact ⟨start, hstart, front ++ passed, .cons hfront hpassed,
        by rw [hsplit, heq, List.append_assoc]⟩
    · rintro ⟨start, hstart, _, hmatches, heq⟩
      obtain ⟨front, passed, rfl, hfront, hpassed⟩ := Piece.matchesAll_cons.mp hmatches
      obtain ⟨o, ho, hsplit⟩ :=
        (hrest (passed ++ rest)).mpr ⟨start, hstart, front, hfront, by rw [heq, List.append_assoc]⟩
      exact ⟨o, ho, passed, hpassed, hsplit⟩

/-- **Occurrences of pieces**: a pattern of pieces occurs where they match a part of the text. -/
theorem occursIn_pieces (pieces : List Piece) (text : String) :
    occursIn (ofPieces pieces) text = true ↔
      ∃ cs, cs <:+: text.toList ∧ Piece.MatchesAll pieces cs := by
  have hends := exists_mem_runAll_pieces (Cursor.ordered_ofText text) pieces
  rw [occursIn, ofPieces, run_concat, Bool.not_eq_true', List.isEmpty_eq_false_iff_exists_mem]
  constructor
  · rintro ⟨q, hq⟩
    obtain ⟨o, ho, passed, hpassed, hrest⟩ := (hends q.rest).mp ⟨q, hq, rfl⟩
    have hsuffix := Cursor.exists_mem_ofText_iff.mp ⟨o, ho, rfl⟩
    exact ⟨passed, List.IsInfix.trans ⟨[], q.rest, hrest.symm⟩ hsuffix.isInfix, hpassed⟩
  · rintro ⟨cs, ⟨front, rest, htext⟩, hmatches⟩
    obtain ⟨o, ho, hrest⟩ := Cursor.exists_mem_ofText_iff.mpr
      (show cs ++ rest <:+ text.toList from ⟨front, by rw [← htext, List.append_assoc]⟩)
    obtain ⟨q, hq, -⟩ := (hends rest).mpr ⟨o, ho, cs, hmatches, hrest⟩
    exact ⟨q, hq⟩

end Matching

/-! ### Reading pieces -/

private theorem depth_ofPiece_le (p : Piece) : (ofPiece p).depth ≤ 1 := by
  rcases p with c | _
  · exact Nat.zero_le 1
  · exact Nat.le_refl 1

private theorem factors_ofPiece (p : Piece) : factors (ofPiece p).value = [(ofPiece p).value] := by
  rcases p with c | _ <;> rfl

/-- What pieces are read as is a sequence, unless it is one piece or none. -/
private theorem ofPieces_eq (pieces : List Piece) :
    ofPieces pieces =
      match pieces.map fun p => (ofPiece p).value with
      | [] => .empty
      | [r] => r
      | rs => .seq rs := by
  have hself : (pieces.map fun p => (ofPiece p).value).flatMap factors =
      pieces.map fun p => (ofPiece p).value := by
    induction pieces with
    | nil => rfl
    | cons p pieces ih => rw [List.map_cons, List.flatMap_cons, factors_ofPiece, ih]; rfl
  rw [ofPieces]
  generalize (pieces.map fun p => (ofPiece p).value) = rs at hself ⊢
  rcases rs with _ | ⟨r, _ | ⟨r', rs⟩⟩ <;> rw [concat, hself]

/-- A character that is not special is no operator. -/
private theorem ne_of_not_special {c d : Char} (h : isSpecial c = false) (hd : isSpecial d = true) :
    c ≠ d := by
  rintro rfl
  rw [h] at hd
  cases hd

/-- A special character can be escaped. -/
private theorem isEscapable_of_special {c : Char} (h : isSpecial c = true) :
    isEscapable c = true := by
  have hall : ['\\', '.', '+', '*', '?', '(', ')', '|', '[', '\x7b', '^', '$'].all isEscapable =
      true := rfl
  exact List.all_eq_true.mp hall c (of_decide_eq_true h)

section Parsing

variable (pieces : List Piece)

/-- Pieces begin with no repetition operator. -/
private theorem head_pieces {c : Char} {rest : List Char}
    (h : pieces.flatMap Piece.written = c :: rest) :
    c ≠ '*' ∧ c ≠ '+' ∧ c ≠ '?' ∧ c ≠ '\x7b' := by
  rcases pieces with _ | ⟨d | _, pieces⟩
  · cases h
  · rw [List.flatMap_cons, Piece.written] at h
    rcases hspecial : isSpecial d with _ | _ <;> rw [hspecial] at h
    · obtain ⟨rfl, -⟩ := List.cons.inj h
      exact ⟨ne_of_not_special hspecial rfl, ne_of_not_special hspecial rfl,
        ne_of_not_special hspecial rfl, ne_of_not_special hspecial rfl⟩
    · obtain ⟨rfl, -⟩ := List.cons.inj h
      decide
  · obtain ⟨rfl, -⟩ := List.cons.inj h
    decide

private theorem repetitions_pieces (n : Nat) (r : Nested Regex) :
    repetitions {} (n + 1) r (pieces.flatMap Piece.written) =
      some (r, pieces.flatMap Piece.written) := by
  have hskip : skip {} (pieces.flatMap Piece.written) = pieces.flatMap Piece.written := rfl
  rw [repetitions, hskip]
  split
  · next h => exact absurd rfl (head_pieces pieces h).1
  · next h => exact absurd rfl (head_pieces pieces h).2.1
  · next h => exact absurd rfl (head_pieces pieces h).2.2.1
  · next h => exact absurd rfl (head_pieces pieces h).2.2.2
  · rfl

private theorem dropReluctant_pieces :
    dropReluctant (pieces.flatMap Piece.written) = pieces.flatMap Piece.written := by
  rw [dropReluctant.eq_def]
  split
  · next h => exact absurd rfl (head_pieces pieces h).2.2.1
  · rfl

/-- A character that is written, as it is or escaped, is read as one part. -/
private theorem exists_part_char (c : Char) (n : Nat) :
    ∃ first rest, Piece.written (.char c) ++ pieces.flatMap Piece.written = first :: rest ∧
      first ≠ '|' ∧ first ≠ ')' ∧ first ≠ '(' ∧
      part {} (n + 1) first rest = some (ofPiece (.char c), pieces.flatMap Piece.written) := by
  rcases hspecial : isSpecial c with _ | _
  · refine ⟨c, pieces.flatMap Piece.written, by rw [Piece.written, hspecial]; rfl,
      ne_of_not_special hspecial rfl, ne_of_not_special hspecial rfl,
      ne_of_not_special hspecial rfl, ?_⟩
    have hplain : plain {} c = .set (.single c) := by
      rw [plain.eq_def]
      split
      case h_4 => rfl
      all_goals exact absurd hspecial (by decide)
    rw [part.eq_def]
    split
    case h_7 =>
      change repetitions {} (n + 1) (.leaf (plain {} c)) (pieces.flatMap Piece.written) = _
      rw [hplain]
      exact repetitions_pieces pieces n _
    all_goals exact absurd hspecial (by decide)
  · refine ⟨'\\', c :: pieces.flatMap Piece.written, by rw [Piece.written, hspecial]; rfl,
      by decide, by decide, by decide, ?_⟩
    have hescape : escape {} (c :: pieces.flatMap Piece.written) =
        some (.char c, pieces.flatMap Piece.written) :=
      if_pos (isEscapable_of_special hspecial)
    simp only [part, hescape]
    exact repetitions_pieces pieces n _

/-- A gap that is written is read as one part. -/
private theorem part_gap (n : Nat) :
    part {} (n + 2) '.' ('*' :: pieces.flatMap Piece.written) =
      some (ofPiece .gap, pieces.flatMap Piece.written) := by
  change repetitions {} (n + 1) _ (dropReluctant (pieces.flatMap Piece.written)) = _
  rw [dropReluctant_pieces]
  exact repetitions_pieces pieces n _

/-- A piece that is written is read as one part of a sequence. -/
private theorem sequence_cons (p : Piece) (n : Nat) (read : List (Nested Regex)) :
    sequence (n + 3) ⟨{}, [], 0⟩ read ((p :: pieces).flatMap Piece.written) =
      sequence (n + 2) ⟨{}, [], 0⟩ (ofPiece p :: read) (pieces.flatMap Piece.written) := by
  have hstep : ∀ {first : Char} {rest : List Char} {r : Nested Regex},
      first ≠ '|' → first ≠ ')' → first ≠ '(' →
      part {} (n + 2) first rest = some (r, pieces.flatMap Piece.written) →
      sequence (n + 3) ⟨{}, [], 0⟩ read (first :: rest) =
        sequence (n + 2) ⟨{}, [], 0⟩ (r :: read) (pieces.flatMap Piece.written) := by
    intro first rest r hbar hclose hopen hpart
    have hskip : skip {} (first :: rest) = first :: rest := rfl
    rw [sequence, hskip]
    split
    · next h => cases h
    · next h => exact absurd (List.cons.inj h).1 hbar
    · next h => exact absurd (List.cons.inj h).1 hclose
    · next h => exact absurd (List.cons.inj h).1 hopen
    · next h =>
      obtain ⟨rfl, rfl⟩ := List.cons.inj h
      rw [hpart]
  rw [List.flatMap_cons]
  rcases p with c | _
  · obtain ⟨first, rest, hwritten, hbar, hclose, hopen, hpart⟩ := exists_part_char pieces c (n + 1)
    rw [hwritten]
    exact hstep hbar hclose hopen hpart
  · exact hstep (by decide) (by decide) (by decide) (part_gap pieces n)

/-- **Reading pieces** reads each as one part. -/
theorem sequence_pieces {n : Nat} (hn : pieces.length + 3 ≤ n) (read : List (Nested Regex)) :
    sequence n ⟨{}, [], 0⟩ read (pieces.flatMap Piece.written) =
      some (.join concat (read.reverse ++ pieces.map ofPiece), ⟨{}, [], 0⟩, []) := by
  induction pieces generalizing n read with
  | nil =>
    obtain ⟨m, rfl⟩ := Nat.exists_eq_add_of_le' hn
    rw [List.map_nil, List.append_nil]
    rfl
  | cons p pieces ih =>
    rw [List.length_cons] at hn
    obtain ⟨m, rfl⟩ := Nat.exists_eq_add_of_le' (Nat.le_trans (Nat.le_add_left 3 _) hn)
    rw [sequence_cons, ih (by omega), List.reverse_cons, List.append_assoc]
    rfl

/-- What pieces are read as is put one after another, and nests nothing but the gaps. -/
private theorem join_pieces :
    (Nested.join concat (pieces.map ofPiece)).value = ofPieces pieces ∧
      (Nested.join concat (pieces.map ofPiece)).depth ≤ 2 := by
  rcases pieces with _ | ⟨p, _ | ⟨p', pieces⟩⟩
  · exact ⟨rfl, Nat.zero_le 2⟩
  · exact ⟨(ofPieces_eq [p]).symm, Nat.le_succ_of_le (depth_ofPiece_le p)⟩
  · have hmax : ∀ (depths : List Nat) (d : Nat), d ≤ 1 → (∀ e ∈ depths, e ≤ 1) →
        depths.foldl max d ≤ 1 := by
      intro depths
      induction depths with
      | nil => exact fun d hd _ => hd
      | cons e depths ih =>
        intro d hd hdepths
        obtain ⟨he, hdepths⟩ := List.forall_mem_cons.mp hdepths
        exact ih _ (Nat.max_le.mpr ⟨hd, he⟩) hdepths
    refine ⟨?_, Nat.succ_le_succ (hmax _ 0 (Nat.zero_le 1) fun e he => ?_)⟩
    · simp only [List.map_cons, Nested.join, List.map_map]
      rfl
    · have hmem : e ∈ ((p :: p' :: pieces).map ofPiece).map (·.depth) := he
      obtain ⟨r, hr, rfl⟩ := List.mem_map.mp hmem
      obtain ⟨piece, -, rfl⟩ := List.mem_map.mp hr
      exact depth_ofPiece_le piece

/-- Every piece takes a character to write, so that the bound on what remains is no hindrance. -/
private theorem length_le_length_written :
    pieces.length ≤ (pieces.flatMap Piece.written).length := by
  induction pieces with
  | nil => exact Nat.le_refl 0
  | cons p pieces ih =>
    have hwritten : 1 ≤ p.written.length := by
      rcases p with c | _
      · rw [Piece.written]
        split
        · exact Nat.le_succ 1
        · exact Nat.le_refl 1
      · exact Nat.le_succ 1
    rw [List.flatMap_cons, List.length_append, List.length_cons]
    omega

/-- **A pattern of pieces** is what they are read as, one after another. -/
theorem parse?_pieces {pattern : String} (h : pattern.toList = pieces.flatMap Piece.written) :
    parse? pattern = some (ofPieces pieces) := by
  have hfuel : pieces.length + 3 ≤ 4 * pattern.toList.length + 3 := by
    have hle := length_le_length_written pieces
    rw [h]
    omega
  have hread : alternatives (4 * pattern.toList.length + 4) ⟨{}, [], 0⟩ [] pattern.toList =
      some (.join concat (pieces.map ofPiece), ⟨{}, [], 0⟩, []) := by
    rw [alternatives, h, sequence_pieces pieces (h ▸ hfuel)]
    rfl
  obtain ⟨hvalue, hdepth⟩ := join_pieces pieces
  rw [parse?, hread, ← hvalue]
  exact if_pos (Nat.le_trans hdepth (by decide))

end Parsing

end Regex

/-! ### Size -/

/-- Joining ranges makes none that begins elsewhere. -/
private theorem Text.exists_of_mem_coalesce {ranges : List (Nat × Nat)} {e : Nat × Nat}
    (h : e ∈ coalesce ranges) : ∃ r ∈ ranges, r.1 = e.1 := by
  fun_induction coalesce ranges <;> grind

/-- The characters of words begin behind the line feed. -/
private theorem Text.lt_of_mem_wordRanges {e : Nat × Nat} (h : e ∈ wordRanges.list) : 10 < e.1 := by
  have hall : ∀ r ∈ alphabeticRanges.list ++ digitRanges.list ++ joiningRanges.list, 10 < r.1 := by
    decide +kernel
  obtain ⟨r, hr, heq⟩ := exists_of_mem_coalesce h
  exact heq ▸ hall r (List.mem_mergeSort.mp hr)

namespace CharSet

/-- The dot is none of the sets whose sizes are known beforehand. -/
private theorem lookup_dot : wordSizes.lookup (Regex.dot {}) = none := by
  have hword : Regex.dot {} ≠ word := by
    intro h
    have hmem : (0, 9) ∈ Text.wordRanges.list := by
      rw [show Text.wordRanges = (Regex.dot {}).ranges from congrArg ranges h.symm]
      exact List.mem_cons_self
    exact absurd (Text.lt_of_mem_wordRanges hmem) (by decide)
  have hother : Regex.dot {} ≠ word.compl := by
    intro h
    have hgaps : [(0, 9), (11, 1114111)] = Text.gapsFrom 0 Text.wordRanges.list :=
      congrArg (·.ranges.list) h
    rcases hranges : Text.wordRanges.list with _ | ⟨r, rs⟩ <;> rw [hranges] at hgaps
    · cases hgaps
    · have hr : 10 < r.1 := Text.lt_of_mem_wordRanges (hranges ▸ List.mem_cons_self)
      rw [Text.gapsFrom, if_pos (Nat.lt_trans (by decide) hr)] at hgaps
      have hfirst : 9 = r.1 - 1 := congrArg Prod.snd (List.cons.inj hgaps).1
      omega
  rw [wordSizes, List.map_cons, List.map_cons, List.map_nil, List.lookup_cons, List.lookup_cons,
    beq_eq_false_iff_ne.mpr hword, beq_eq_false_iff_ne.mpr hother]
  rfl

private theorem automatonSize_dot :
    (Regex.dot {}).automatonSize .forward = 424 ∧
      (Regex.dot {}).automatonSize .backward = 1000 := by
  have honly : (Regex.dot {}).only? = none := rfl
  rw [automatonSize.eq_def, automatonSize.eq_def, honly, lookup_dot]
  refine ⟨?_, ?_⟩
  · change rangesAutomatonSize .forward [(0, 9), (11, 1114111)] = 424
    decide +kernel
  · change rangesAutomatonSize .backward [(0, 9), (11, 1114111)] = 1000
    decide +kernel

private theorem automatonSize_single (d : ReadingOrder) (c : Char) :
    (single c).automatonSize d = stateSize * c.utf8Size := by
  have honly : (single c).only? = some c := by
    change (if c.toNat = c.toNat then some (Char.ofNat c.toNat) else none) = some c
    exact (if_pos rfl).trans (congrArg some (Char.ofNat_toNat c))
  rw [automatonSize.eq_def, honly]

end CharSet

namespace Regex

/-- The size of a piece. -/
def sizeOfPiece (d : ReadingOrder) (p : Piece) : Nat := (ofPiece p).value.statesSize d

private theorem sizeOfPiece_char (d : ReadingOrder) (c : Char) :
    sizeOfPiece d (.char c) = stateSize * c.utf8Size :=
  CharSet.automatonSize_single d c

private theorem sizeOfPiece_gap :
    sizeOfPiece .forward .gap = 464 ∧ sizeOfPiece .backward .gap = 1040 := by
  obtain ⟨hforward, hbackward⟩ := CharSet.automatonSize_dot
  exact ⟨congrArg (· + splitSize 2) hforward, congrArg (· + splitSize 2) hbackward⟩

/-- Pieces match only a part of the text, or nothing, at any place of it. -/
private theorem not_pinned_piece (d : ReadingOrder) (a : Anchor) (p : Piece) :
    (ofPiece p).value.isPinned d a = false ∧ (ofPiece p).value.matchesOnlyEmpty = false := by
  rcases p with c | _ <;> exact ⟨rfl, rfl⟩

variable {pieces : List Piece}

/-- A pattern of pieces has the states of each. -/
private theorem statesSize_pieces (hne : pieces ≠ []) (d : ReadingOrder) :
    (ofPieces pieces).statesSize d = (pieces.map (sizeOfPiece d)).sum := by
  have htotal : ∀ pieces : List Piece, totalSize d (pieces.map fun p => (ofPiece p).value) =
      (pieces.map (sizeOfPiece d)).sum := by
    intro pieces
    induction pieces with
    | nil => rfl
    | cons p pieces ih =>
      rw [List.map_cons, totalSize, ih, List.map_cons, List.sum_cons]
      rfl
  rw [ofPieces_eq, ← htotal]
  rcases pieces with _ | ⟨p, _ | ⟨p', pieces⟩⟩
  · exact absurd rfl hne
  · rfl
  · rfl

/-- A pattern of pieces can match everywhere. -/
private theorem not_pinned_pieces (d : ReadingOrder) (a : Anchor) (pieces : List Piece) :
    (ofPieces pieces).isPinned d a = false := by
  have hfirst : ∀ pieces : List Piece,
      firstPinned d a (pieces.map fun p => (ofPiece p).value) = false := by
    intro pieces
    rcases pieces with _ | ⟨p, pieces⟩
    · rfl
    · rw [List.map_cons, firstPinned, (not_pinned_piece d a p).1, (not_pinned_piece d a p).2]
      rfl
  have hlast : ∀ pieces : List Piece,
      lastPinned d a (pieces.map fun p => (ofPiece p).value) = false := by
    intro pieces
    induction pieces with
    | nil => rfl
    | cons p pieces ih =>
      rw [List.map_cons, lastPinned, ih, (not_pinned_piece d a p).1, Bool.and_false]
      rfl
  rw [ofPieces_eq]
  rcases pieces with _ | ⟨p, _ | ⟨p', pieces⟩⟩
  · rfl
  · exact (not_pinned_piece d a p).1
  · cases d
    · exact hfirst (p :: p' :: pieces)
    · exact hlast (p :: p' :: pieces)

/-- **Patterns of pieces are within the limit** as long as the pieces are small enough together. -/
theorem isCompact_pieces (hne : pieces ≠ []) :
    (ofPieces pieces).isCompact = true ↔
      (pieces.map (sizeOfPiece .forward)).sum + 208 ≤ sizeLimit ∧
        (pieces.map (sizeOfPiece .backward)).sum + 144 ≤ sizeLimit := by
  have hforward : (ofPieces pieces).automatonSize .forward =
      (pieces.map (sizeOfPiece .forward)).sum + 208 := by
    rw [automatonSize, not_pinned_pieces, statesSize_pieces hne]
    exact Nat.add_comm _ _
  have hbackward : (ofPieces pieces).automatonSize .backward =
      (pieces.map (sizeOfPiece .backward)).sum + 144 := by
    rw [automatonSize, not_pinned_pieces, statesSize_pieces hne]
    exact Nat.add_comm _ _
  rw [isCompact, hforward, hbackward, Bool.and_eq_true, decide_eq_true_iff, decide_eq_true_iff]

end Regex

/-! ### The engine -/

section Engine

attribute [local instance] engine

/-- What the engine makes of a pattern of pieces. -/
private theorem read_pattern (pieces : List Piece) :
    RegexEngine.read (Piece.pattern pieces) =
      if (Regex.ofPieces pieces).isCompact then .ok (Regex.ofPieces pieces).occursIn
      else .error .tooLarge := by
  have hparse : Regex.parse? (Piece.pattern pieces) = some _ :=
    Regex.parse?_pieces pieces String.toList_ofList
  rw [RegexEngine.read, engine]
  simp only [hparse]

/-- **The engine reads pieces** as it is asked to. -/
theorem readsPieces_engine : RegexEngine.ReadsPieces where
  wellFormed pieces := by
    rw [read_pattern]
    split
    · exact nofun
    · exact nofun
  occurs {pieces test} h s := by
    rw [read_pattern] at h
    split at h
    · cases h
      exact Regex.occursIn_pieces pieces s
    · cases h

/-- **The engine admits pieces** that are small enough together. -/
theorem admits_pattern_iff {pieces : List Piece} (hne : pieces ≠ []) :
    RegexEngine.Admits (Piece.pattern pieces) ↔
      (pieces.map (Regex.sizeOfPiece .forward)).sum + 208 ≤ Regex.sizeLimit ∧
        (pieces.map (Regex.sizeOfPiece .backward)).sum + 144 ≤ Regex.sizeLimit := by
  rw [← Regex.isCompact_pieces hne, RegexEngine.Admits, read_pattern]
  split
  · next h =>
    refine ⟨fun _ => h, fun _ hread => ?_⟩
    cases hread
  · next h => exact ⟨fun hadmits => absurd rfl hadmits, fun hcompact => absurd hcompact h⟩

/-- Containments of texts that are not very long are admitted at every location. -/
theorem admits_containment (location : Location) {text : String}
    (h : text.toList.length ≤ 80000) :
    RegexEngine.Admits (location.pattern (Piece.escaped text)) := by
  have hchars : ∀ d, ((Piece.ofText text).map (Regex.sizeOfPiece d)).sum ≤ 128 * 80000 := by
    intro d
    refine Nat.le_trans (List.sum_le_card_nsmul _ 128 fun n hn => ?_) ?_
    · obtain ⟨p, hp, rfl⟩ := List.mem_map.mp hn
      obtain ⟨c, -, rfl⟩ := List.mem_map.mp hp
      rw [Regex.sizeOfPiece_char]
      exact Nat.mul_le_mul_left 32 c.utf8Size_le_four
    · rw [List.length_map, Piece.ofText, List.length_map, smul_eq_mul, Nat.mul_comm]
      exact Nat.mul_le_mul_left 128 h
  have hforward := hchars .forward
  have hbackward := hchars .backward
  obtain ⟨hgap, hgap'⟩ := Regex.sizeOfPiece_gap
  have hne : location.pieces text ≠ [] := by
    cases location <;> simp [Location.pieces]
  rw [location.pattern_escaped, admits_pattern_iff hne, Regex.sizeLimit]
  cases location <;>
    simp only [Location.pieces, List.map_cons, List.map_append, List.map_nil, List.sum_cons,
      List.sum_append, List.sum_nil, hgap, hgap'] <;>
    omega

end Engine

end DocQuery.Runtime
