import DocQuery.Proofs.EnginePieces
import DocQuery.Proofs.FilterMeaning
import DocQuery.Proofs.TextPatterns
import DocQuery.Runtime.Regex.Engine

/-!
# What containment finds

A containment asks whether a text occurs in the text at a field, anywhere in it, at its start or at
its end. It is compiled to a pattern that puts gaps around the text as it is, and a pattern may
occur anywhere. So the gaps change nothing, and what is found is the same for all three locations
(`Location.compile_pattern_escaped`): a text without special characters is found wherever it
occurs. Special characters are found if they are escaped, and otherwise read as a pattern.

The main theorem, `Filter.satisfies_contains`, says this of compiled filters, for every engine that
reads such patterns as the syntax of regular expressions says, and that the inverted filter decides
the opposite for every text that is searched for. `satisfies_contains_misplaced` has two texts that
are found where the location, or the text that is asked for, says that they should not be.
-/

namespace DocQuery

namespace Filter

section Containment

variable {mode : Addressing} {field : Field} {d : Document} {s : String}
  (hplain : field.IsPlain mode) (hat : d.at? mode field = some (.string s)) (location : Location)

include hplain hat

/-- The filter of a containment compiles where there is a value at its field, and decides whether
its pattern occurs in a text there. -/
private theorem exists_satisfies_pattern [RegexEngine] (inverse : Bool) (needle : String) :
    ∃ query,
      compile mode (.value field (.contains inverse location) (.bind (.string needle))) =
        .ok query ∧
      d.satisfies query = (RegexEngine.compile (location.pattern needle) "").map fun occurs =>
        xor inverse (occurs s) := by
  obtain ⟨path, hpath⟩ : ∃ path, field.resolve mode = .ok path := by
    rw [Document.at?] at hat
    rcases hpath : field.resolve mode with e | path
    · rw [hpath] at hat
      cases hat
    · exact ⟨path, rfl⟩
  obtain ⟨query, hquery⟩ : ∃ query, compile mode
      (.value field (.contains inverse location) (.bind (.string needle))) = .ok query := by
    rw [compile, hpath]
    exact ⟨_, rfl⟩
  refine ⟨query, hquery, ?_⟩
  rw [satisfies_compile d _ hquery fun f hf => List.mem_singleton.mp hf ▸ hplain, holds, hat]
  rfl

/-- **Containment filters.** On a document with a text at the field, the filter of a containment
decides whether its pattern occurs anywhere in the text, or fails if it is no pattern, and the
inverted filter decides the opposite, or fails alike. A text to search for that has no special
characters, or has them escaped, is found wherever it occurs in the text of the document, be it
searched for anywhere, at the start or at the end, and only refused if its pattern takes too much
memory. -/
theorem satisfies_contains [RegexEngine] (hengine : RegexEngine.ReadsPieces) (needle : String) :
    ∃ query inverted,
      compile mode (.value field (.contains false location) (.bind (.string needle))) =
        .ok query ∧
      compile mode (.value field (.contains true location) (.bind (.string needle))) =
        .ok inverted ∧
      d.satisfies query = (RegexEngine.compile (location.pattern needle) "").map (· s) ∧
      d.satisfies inverted = (d.satisfies query).map (!·) ∧
      ∀ text : String,
        (needle = text ∧ (∀ c ∈ text.toList, Piece.isSpecial c = false) ∨
          needle = Piece.escaped text) →
        (RegexEngine.Admits (location.pattern needle) →
          d.satisfies query = .ok (decide (text.toList <:+: s.toList))) ∧
        (¬ RegexEngine.Admits (location.pattern needle) →
          d.satisfies query = .error .invalidRegex) := by
  obtain ⟨query, hquery, hdecides⟩ := exists_satisfies_pattern hplain hat location false needle
  obtain ⟨inverted, hinverted, hopposite⟩ :=
    exists_satisfies_pattern hplain hat location true needle
  simp only [Bool.false_xor] at hdecides
  refine ⟨query, inverted, hquery, hinverted, hdecides, ?_, fun text hneedle => ?_⟩
  · rw [hopposite, hdecides]
    rcases RegexEngine.compile (location.pattern needle) "" with e | occurs
    · rfl
    · simp only [Except.map, Bool.true_xor]
  · obtain rfl : needle = Piece.escaped text := by
      rcases hneedle with ⟨rfl, hordinary⟩ | h
      · exact (Piece.escaped_of_not_special hordinary).symm
      · exact h
    rcases location.compile_pattern_escaped hengine text with
      ⟨hlarge, hcompile⟩ | ⟨hadmits, test, hcompile, htest⟩ <;> rw [hcompile] at hdecides
    · exact ⟨fun hadmits => absurd hadmits hlarge, fun _ => hdecides⟩
    · exact ⟨fun _ => hdecides.trans (congrArg Except.ok (htest s)),
        fun hlarge => absurd hadmits hlarge⟩

end Containment

/-- The name of a note. -/
def nameOfNote : Field := .single (.name "name") "notes"

attribute [local instance] Runtime.engine

/-- A text in parentheses is found if the parentheses are escaped, and the inverted filter does not
hold of a note that contains it. -/
theorem satisfies_contains_nameOfNote :
    let d : Document := [("name", .string "a (b)")]
    ∃ query inverted,
      compile .plain (.value nameOfNote (.contains false .atEnd) (.bind (.string "\\(b\\)"))) =
        .ok query ∧
      compile .plain (.value nameOfNote (.contains true .atEnd) (.bind (.string "\\(b\\)"))) =
        .ok inverted ∧
      d.satisfies query = .ok true ∧ d.satisfies inverted = .ok false := by
  intro d
  have hplain : nameOfNote.IsPlain .plain := by decide
  have hat : d.at? .plain nameOfNote = some (.string "a (b)") := rfl
  obtain ⟨query, inverted, hquery, hinverted, -, hopposite, hfound⟩ :=
    satisfies_contains hplain hat .atEnd Runtime.readsPieces_engine "\\(b\\)"
  have hescaped : "\\(b\\)" = Piece.escaped "(b)" := by decide
  have hadmits : RegexEngine.Admits (Location.pattern .atEnd "\\(b\\)") :=
    hescaped ▸ Runtime.admits_containment .atEnd (by decide)
  have htrue : d.satisfies query = .ok true :=
    ((hfound "(b)" (.inr hescaped)).1 hadmits).trans (by decide)
  exact ⟨query, inverted, hquery, hinverted, htrue, by rw [hopposite, htrue]; rfl⟩

/-- A name that contains a short text is found by it at every location. -/
private theorem exists_satisfies_escaped (location : Location) (text name : String)
    (hlength : text.toList.length ≤ 80000) (hpart : text.toList <:+: name.toList) :
    ∃ query,
      compile .plain (.containing nameOfNote location (Piece.escaped text)) = .ok query ∧
        Document.satisfies [("name", .string name)] query = .ok true := by
  have hplain : nameOfNote.IsPlain .plain := by decide
  have hat : Document.at? [("name", .string name)] .plain nameOfNote = some (.string name) := rfl
  obtain ⟨query, hquery, hdecides⟩ :=
    exists_satisfies_pattern hplain hat location false (Piece.escaped text)
  obtain ⟨-, test, hcompile, htest⟩ := (location.compile_pattern_escaped
    Runtime.readsPieces_engine text).resolve_left fun h =>
      h.1 (Runtime.admits_containment location hlength)
  refine ⟨query, hquery, ?_⟩
  rw [hdecides, hcompile, Except.map, htest name, decide_eq_true hpart]
  rfl

/-- Two texts that are found and should not be: one in the middle of a text that is asked for at the
start, and one without the backslash that is asked for. -/
theorem satisfies_contains_misplaced :
    (∃ query, compile .plain (.containing nameOfNote .atStart "b") = .ok query ∧
      Document.satisfies [("name", .string "ab")] query = .ok true ∧
      ¬ "b".toList <+: "ab".toList) ∧
    ∃ query, compile .plain (.containing nameOfNote .anywhere "\\.") = .ok query ∧
      Document.satisfies [("name", .string "a.b")] query = .ok true ∧
      ¬ "\\.".toList <:+: "a.b".toList := by
  have hletter : "b" = Piece.escaped "b" := by decide
  have hdot : "\\." = Piece.escaped "." := by decide
  refine ⟨?_, ?_⟩
  · obtain ⟨query, hquery, htrue⟩ :=
      exists_satisfies_escaped .atStart "b" "ab" (by decide) (by decide)
    exact ⟨query, hletter ▸ hquery, htrue, by decide⟩
  · obtain ⟨query, hquery, htrue⟩ :=
      exists_satisfies_escaped .anywhere "." "a.b" (by decide) (by decide)
    exact ⟨query, hdot ▸ hquery, htrue, by decide⟩

end Filter

end DocQuery
