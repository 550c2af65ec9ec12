import DocQuery.Filter.Compile
import DocQuery.Matching
import Mathlib.Data.List.Infix

/-!
# Patterns of texts

A text is written as a pattern by a backslash before every character that patterns read as something
else. A `Piece` is one character of such a pattern, or a gap `.*`, and matches what the usual syntax
of regular expressions says. `RegexEngine.ReadsPieces` asks of an engine that it reads patterns of
pieces so, and that its search is not anchored.

The pattern of a containment puts gaps around the text. As a gap can be empty, and a match can begin
and end anywhere, the gaps change nothing (`Location.exists_matchesAll_iff`): at every location
the pattern of a text occurs in exactly those texts that contain it
(`Location.compile_pattern_escaped`).
-/

namespace DocQuery

/-! ### Pieces -/

/-- A part of a pattern: a character that stands for itself, or any number of characters on a
line. -/
inductive Piece where
  | char (c : Char)
  | gap

namespace Piece

/-- Whether a pattern reads a character as something else than itself. -/
def isSpecial (c : Char) : Bool :=
  c ∈ ['\\', '.', '+', '*', '?', '(', ')', '|', '[', '\x7b', '^', '$']

/-- A piece as it is written: a special character stands behind a backslash. -/
def written : Piece → List Char
  | .char c => if isSpecial c then ['\\', c] else [c]
  | .gap => ['.', '*']

/-- The pattern of pieces one after another. -/
def pattern (pieces : List Piece) : String := String.ofList (pieces.flatMap written)

/-- The pieces of a text. -/
def ofText (text : String) : List Piece := text.toList.map .char

/-- A text with its special characters escaped. -/
def escaped (text : String) : String := pattern (ofText text)

/-- Whether a piece matches characters: itself, or whatever is on one line. -/
def Matches : Piece → List Char → Prop
  | .char c, cs => cs = [c]
  | .gap, cs => '\n' ∉ cs

/-- Whether pieces match characters one after another. -/
inductive MatchesAll : List Piece → List Char → Prop
  | nil : MatchesAll [] []
  | cons {p : Piece} {pieces : List Piece} {cs rest : List Char} (h : p.Matches cs)
      (hrest : MatchesAll pieces rest) : MatchesAll (p :: pieces) (cs ++ rest)

/-- A text without special characters is a pattern for itself. -/
theorem escaped_of_not_special {text : String} (h : ∀ c ∈ text.toList, isSpecial c = false) :
    escaped text = text := by
  have hself : ∀ cs : List Char, (∀ c ∈ cs, isSpecial c = false) →
      (cs.map char).flatMap written = cs := by
    intro cs hcs
    induction cs with
    | nil => rfl
    | cons c cs ih =>
      obtain ⟨hc, hcs⟩ := List.forall_mem_cons.mp hcs
      rw [List.map_cons, List.flatMap_cons, ih hcs, written, hc]
      rfl
  rw [escaped, pattern, ofText, hself _ h, String.ofList_toList]

theorem matchesAll_nil {cs : List Char} : MatchesAll [] cs ↔ cs = [] := by
  constructor
  · rintro ⟨⟩
    rfl
  · rintro rfl
    exact .nil

theorem matchesAll_cons {p : Piece} {pieces : List Piece} {cs : List Char} :
    MatchesAll (p :: pieces) cs ↔
      ∃ front rest, cs = front ++ rest ∧ p.Matches front ∧ MatchesAll pieces rest := by
  constructor
  · rintro (_ | ⟨h, hrest⟩)
    exact ⟨_, _, rfl, h, hrest⟩
  · rintro ⟨front, rest, rfl, h, hrest⟩
    exact .cons h hrest

/-- Pieces after others match what follows. -/
theorem matchesAll_append {pieces pieces' : List Piece} {cs : List Char} :
    MatchesAll (pieces ++ pieces') cs ↔
      ∃ front rest, cs = front ++ rest ∧ MatchesAll pieces front ∧ MatchesAll pieces' rest := by
  induction pieces generalizing cs with
  | nil => simp [matchesAll_nil]
  | cons p pieces ih =>
    rw [List.cons_append, matchesAll_cons]
    constructor
    · rintro ⟨first, _, rfl, hfirst, h⟩
      obtain ⟨front, rest, rfl, hfront, hrest⟩ := ih.mp h
      exact ⟨first ++ front, rest, (List.append_assoc ..).symm, .cons hfirst hfront, hrest⟩
    · rintro ⟨_, rest, rfl, h, hrest⟩
      obtain ⟨first, front, rfl, hfirst, hfront⟩ := matchesAll_cons.mp h
      exact ⟨first, front ++ rest, List.append_assoc .., hfirst, ih.mpr ⟨_, _, rfl, hfront, hrest⟩⟩

/-- The pieces of a text match it and nothing else. -/
private theorem matchesAll_ofText {text : String} {cs : List Char} :
    MatchesAll (ofText text) cs ↔ cs = text.toList := by
  rw [ofText]
  generalize text.toList = text
  induction text generalizing cs with
  | nil => exact matchesAll_nil
  | cons c text ih =>
    rw [List.map_cons, matchesAll_cons]
    constructor
    · rintro ⟨_, rest, rfl, rfl, hrest⟩
      exact congrArg (c :: ·) (ih.mp hrest)
    · rintro rfl
      exact ⟨[c], text, rfl, rfl, ih.mpr rfl⟩

/-- Gaps can be empty. -/
private theorem matchesAll_of_gaps {pieces : List Piece} (h : ∀ p ∈ pieces, p = .gap) :
    MatchesAll pieces [] := by
  induction pieces with
  | nil => exact .nil
  | cons p pieces ih =>
    obtain ⟨rfl, hrest⟩ := List.forall_mem_cons.mp h
    have hgap : Piece.gap.Matches [] := List.not_mem_nil
    have hall := MatchesAll.cons hgap (ih hrest)
    exact hall

end Piece

/-! ### What is asked of an engine -/

/-- An engine reads the patterns of pieces as the syntax of regular expressions says. -/
structure RegexEngine.ReadsPieces [RegexEngine] : Prop where
  /-- They are patterns; the only reason to refuse one is the memory that it takes. -/
  wellFormed (pieces : List Piece) :
    RegexEngine.read (Piece.pattern pieces) ≠ .error .malformed
  /-- A search finds a match wherever it begins and ends in a text. -/
  occurs {pieces : List Piece} {test : String → Bool}
    (h : RegexEngine.read (Piece.pattern pieces) = .ok test) (s : String) :
    test s = true ↔ ∃ cs, cs <:+: s.toList ∧ Piece.MatchesAll pieces cs

namespace RegexEngine

variable [RegexEngine]

/-- A pattern does not take too much memory. -/
def Admits (pattern : String) : Prop := read pattern ≠ .error .tooLarge

/-- Without options a pattern is searched for as it is. -/
private theorem compile_empty (pattern : String) :
    compile pattern "" = (read pattern).mapError fun _ => .invalidRegex := by
  simp only [compile, String.toList_empty, List.filter_nil, List.isEmpty_nil, if_true]

end RegexEngine

/-! ### Containments -/

namespace Location

/-- The pieces of the pattern of a containment. -/
def pieces (location : Location) (text : String) : List Piece :=
  match location with
  | .anywhere => .gap :: (Piece.ofText text ++ [.gap])
  | .atStart => Piece.ofText text ++ [.gap]
  | .atEnd => .gap :: Piece.ofText text

/-- The pattern of a containment of an escaped text is that of its pieces. -/
theorem pattern_escaped (location : Location) (text : String) :
    location.pattern (Piece.escaped text) = Piece.pattern (location.pieces text) := by
  have hgap : (".*" : String) = String.ofList (Piece.written .gap) := rfl
  cases location <;>
    simp only [pattern, pieces, Piece.escaped, Piece.pattern, hgap, List.flatMap_cons,
      List.flatMap_append, List.flatMap_nil, List.append_nil, String.ofList_append,
      String.append_assoc]

/-- The pieces of a containment are those of the text, with gaps before or after them. -/
theorem exists_pieces_eq (location : Location) (text : String) :
    ∃ before after, location.pieces text = before ++ Piece.ofText text ++ after ∧
      (∀ p ∈ before, p = .gap) ∧ ∀ p ∈ after, p = .gap := by
  cases location with
  | anywhere => exact ⟨[.gap], [.gap], rfl, by simp, by simp⟩
  | atStart => exact ⟨[], [.gap], rfl, by simp, by simp⟩
  | atEnd => exact ⟨[.gap], [], (List.append_nil _).symm, by simp, by simp⟩

/-- **The gaps of a containment change nothing**: its pieces match in a text if this contains the
text that is searched for. -/
theorem exists_matchesAll_iff (location : Location) (text : String) (s : List Char) :
    (∃ cs, cs <:+: s ∧ Piece.MatchesAll (location.pieces text) cs) ↔ text.toList <:+: s := by
  obtain ⟨before, after, hpieces, hbefore, hafter⟩ := location.exists_pieces_eq text
  rw [hpieces]
  constructor
  · rintro ⟨_, hpart, h⟩
    obtain ⟨_, back, rfl, h, -⟩ := Piece.matchesAll_append.mp h
    obtain ⟨front, _, rfl, -, h⟩ := Piece.matchesAll_append.mp h
    obtain rfl := Piece.matchesAll_ofText.mp h
    exact List.IsInfix.trans ⟨front, back, rfl⟩ hpart
  · intro hpart
    refine ⟨text.toList, hpart, Piece.matchesAll_append.mpr ⟨text.toList, [], ?_, ?_,
      Piece.matchesAll_of_gaps hafter⟩⟩
    · exact (List.append_nil _).symm
    · exact Piece.matchesAll_append.mpr
        ⟨[], text.toList, rfl, Piece.matchesAll_of_gaps hbefore, Piece.matchesAll_ofText.mpr rfl⟩

/-- **The pattern of a containment** of an escaped text is refused if it takes too much memory, and
otherwise occurs in the texts that contain the text, at every location. -/
theorem compile_pattern_escaped [RegexEngine] (hengine : RegexEngine.ReadsPieces)
    (location : Location) (text : String) :
    (¬ RegexEngine.Admits (location.pattern (Piece.escaped text)) ∧
        RegexEngine.compile (location.pattern (Piece.escaped text)) "" = .error .invalidRegex) ∨
      RegexEngine.Admits (location.pattern (Piece.escaped text)) ∧
        ∃ test, RegexEngine.compile (location.pattern (Piece.escaped text)) "" = .ok test ∧
          ∀ s : String, test s = decide (text.toList <:+: s.toList) := by
  rw [RegexEngine.compile_empty, RegexEngine.Admits, location.pattern_escaped]
  rcases hread : RegexEngine.read (Piece.pattern (location.pieces text)) with (_ | _) | test
  · exact absurd hread (hengine.wellFormed _)
  · exact .inl ⟨fun h => h rfl, rfl⟩
  · refine .inr ⟨nofun, test, rfl, fun s => ?_⟩
    rw [Bool.eq_iff_iff, decide_eq_true_iff, hengine.occurs hread s]
    exact location.exists_matchesAll_iff text s.toList

end Location

end DocQuery
