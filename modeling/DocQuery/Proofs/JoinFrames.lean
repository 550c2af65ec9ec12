import DocQuery.Proofs.Replies
import DocQuery.Proofs.Selection
import DocQuery.Proofs.WrittenPaths
import DocQuery.Runtime.Regex.Engine
import Mathlib.Control.Monad.Basic

/-!
# What a join leaves of a row

The stages of a join write into every row, at the path that its key is. `Lookup.written` says which
rows they make of one, whatever the key is and whatever stands in the row already
(`Stage.runAll_lookupStages`).

A write at a path replaces what the path leads through and touches nothing else
(`Document.KeptOutside`), and so does a join. `Pipeline.keptOutside_of_join` says this of every join
of every query: the base document and the documents of earlier joins stay as they are as long as the
key of the join does not lead through theirs, nor theirs through it. Nothing sees to that. A read of
people with their superiors, who are people too, loses everybody's own document
(`Pipeline.stages_superiors`).
-/

namespace DocQuery

/-- Two rows that differ at most in what a path leads through: under every key but the first key of
the path they hold the same, and at every path apart from it the same value stands in both. -/
structure Document.KeptOutside (path : String) (row row' : Document) : Prop where
  value?_eq : ∀ key, (Path.segments path).head? ≠ some key → row'.value? key = row.value? key
  standsAt_iff : ∀ other v, Path.Apart path other →
    (StandsAt v (Path.segments other) row' ↔ StandsAt v (Path.segments other) row)

/-- A write at a path changes only what the path leads through. -/
private theorem Document.keptOutside_write (path : String) (row : Document) (v : Value) :
    KeptOutside path row (row.write path v) where
  value?_eq _ hkey := value?_write hkey row v
  standsAt_iff _ _ hother := ⟨fun h => h.of_writeAt hother.1 hother.2, fun h => h.write hother v⟩

/-- The rows that a join makes of a row: one for each foreign document that agrees with it, with
this document at the path of the join's key, or, if rows without a match are kept, one row with the
list of all of them. -/
def Lookup.written (l : Lookup) (foreign : List Document) (row : Document) : List Document :=
  let found := Stage.partners l.localPath l.foreignPath foreign row
  if l.required then found.map fun f => row.write l.key (.document f)
  else [row.write l.key (.array (found.map .document))]

private theorem Lookup.keptOutside_of_mem_written {l : Lookup} {foreign : List Document}
    {row row' : Document} (h : row' ∈ l.written foreign row) :
    Document.KeptOutside l.key row row' := by
  rw [written] at h
  split at h
  · obtain ⟨f, -, rfl⟩ := List.mem_map.mp h
    exact Document.keptOutside_write l.key row (.document f)
  · rw [List.mem_singleton.mp h]
    exact Document.keptOutside_write l.key row _

namespace Stage

/-- Unwinding a list that was written at a path makes a row of each document in it. -/
private theorem unwound_write (path : String) (row : Document) (ds : List Document) :
    unwound path false (row.write path (.array (ds.map .document))) =
      ds.map fun d => row.write path (.document d) := by
  have hread : (row.write path (.array (ds.map .document))).read? path =
      some (.array (ds.map .document)) :=
    (Document.standsAt_writeAt (Path.segments_ne_nil path) row _).read
  rw [unwound, hread]
  rcases ds with _ | ⟨d, ds⟩
  · rfl
  · change ((d :: ds).map Value.document).map _ = _
    rw [List.map_map]
    exact List.map_congr_left fun d _ => Document.write_write row path _ (.document d)

/-- **The stages of a join**, on any rows, write what the join finds for each. -/
theorem runAll_lookupStages [RegexEngine] (collection : String → List Document) (l : Lookup)
    (rows : List Document) :
    runAll collection (Pipeline.lookupStages l) rows =
      .ok (rows.flatMap (l.written (collection l.schema))) := by
  rcases hrequired : l.required with _ | _
  · rw [Pipeline.lookupStages, hrequired, if_neg Bool.false_ne_true, runAll_lookupStage,
      List.map_eq_flatMap]
    refine congrArg Except.ok (congrArg List.flatten (List.map_congr_left fun row _ => ?_))
    rw [Lookup.written, hrequired, if_neg Bool.false_ne_true]
  · rw [runAll_lookupStages_of_required collection hrequired, runAll_lookupStage]
    change runAll collection [Pipeline.unwindStage l] _ = _
    rw [runAll_unwindStage, List.flatMap_map]
    refine congrArg Except.ok (congrArg List.flatten (List.map_congr_left fun row _ => ?_))
    rw [unwound_write, Lookup.written, hrequired, if_pos rfl]

end Stage

namespace Pipeline

/-- **What a join leaves of a row.** Take any join of a query that compiles to a pipeline. On the
rows that the stages before it produce, as on any others, its stages make of each row the rows of
the foreign documents found for it. In each of these every value under another first key than the
join's, and every value that stands at a path apart from the join's key, is exactly what it was. So
the base document is kept unless the join's key leads through its name, and the documents of an
earlier join are kept unless one of the two keys leads through the other. -/
theorem keptOutside_of_join [RegexEngine] {q : Query} {p : Pipeline} {before after : List Lookup}
    {l : Lookup} (hp : compile q = .ok p)
    (hls : Join.lookups q.joins = .ok (before ++ l :: after)) :
    ∃ rest, p.stages =
        rootStage q.schema :: (before.flatMap lookupStages ++ (lookupStages l ++ rest)) ∧
      ∀ (collection : String → List Document) (rows : List Document),
        Stage.runAll collection (lookupStages l) rows =
          .ok (rows.flatMap (l.written (collection l.schema))) ∧
        ∀ row ∈ rows, ∀ row' ∈ l.written (collection l.schema) row,
          Document.KeptOutside l.key row row' := by
  rw [compile_eq, hls] at hp
  obtain ⟨_, hls', hp⟩ := bind_eq_ok_iff.mp hp
  obtain rfl := Except.ok.inj hls'
  obtain ⟨sel, -, hp⟩ := bind_eq_ok_iff.mp hp
  obtain ⟨listed, -, hp⟩ := bind_eq_ok_iff.mp hp
  obtain rfl := Except.ok.inj hp
  refine ⟨after.flatMap lookupStages ++ (selectionStages sel ++ [projectStage listed]), ?_, ?_⟩
  · change stagesOf q.schema (before ++ l :: after) sel listed = _
    rw [stagesOf, List.flatMap_append, List.flatMap_cons]
    simp only [List.append_assoc]
  · intro collection rows
    exact ⟨Stage.runAll_lookupStages collection l rows, fun row _ row' hrow' =>
      Lookup.keptOutside_of_mem_written hrow'⟩

/-- A read of people with their teams, and with their superiors under a key of their own. -/
def staffedPeople : Query where
  schema := "people"
  action := .read
  joins := [.inner "teams" (.identity "teams") (.single (.name "team") "people"),
    (Join.left "people" (.identity "people") (.single (.name "boss") "people")).withAlias
      "superiors"]

/-- The teams of people, as their join is run. -/
def teamsOfPeople : Lookup := ⟨"teams", "teams", "people.team", idKey, true⟩

/-- The superiors of people under a key of their own, as their join is run. -/
def superiorsApart : Lookup := ⟨"people", "superiors", "people.boss", idKey, false⟩

attribute [local instance] Runtime.engine

/-- Attaching superiors leaves people and their teams as they are. -/
theorem keptOutside_of_join_superiors :
    ∃ p, compile staffedPeople = .ok p ∧
      Join.lookups staffedPeople.joins = .ok [teamsOfPeople, superiorsApart] ∧
      ∀ foreign row, ∀ row' ∈ superiorsApart.written foreign row,
        row'.value? "people" = row.value? "people" ∧ row'.value? "teams" = row.value? "teams" := by
  obtain ⟨p, hp⟩ : ∃ p, compile staffedPeople = .ok p := ⟨_, rfl⟩
  have hls : Join.lookups staffedPeople.joins = .ok ([teamsOfPeople] ++ superiorsApart :: []) := rfl
  obtain ⟨rest, -, hrun⟩ := keptOutside_of_join hp hls
  refine ⟨p, hp, hls, fun foreign row row' hrow' => ?_⟩
  obtain ⟨-, hkept⟩ := hrun (fun _ => foreign) [row]
  have hrow := (hkept row (List.mem_singleton_self row) row' hrow').value?_eq
  exact ⟨hrow "people" (by decide), hrow "teams" (by decide)⟩

/-! ### A join under the name of the base collection -/

/-- A read of people with their superiors, if they have any, under the name of people. -/
def superiors : Query where
  schema := "people"
  action := .read
  joins := [.left "people" (.identity "people") (.single (.name "boss") "people")]

/-- The superiors of people, as their join is run. -/
def superiorsOfPeople : Lookup := ⟨"people", "people", "people.boss", idKey, false⟩

/-- One person, whose superior is not there. -/
def onePerson : Catalog :=
  ⟨[("people", ⟨[[(idKey, .int32 1), ("boss", .int32 5)]], []⟩)]⟩

/-- **A join can take the base document.** The read compiles, and its join finds the person's own
document under the name of people and leaves an empty list there. The row that is delivered holds
nothing else. -/
theorem stages_superiors :
    let collection := fun name => (onePerson.collection name).documents
    let person : Document := [(idKey, .int32 1), ("boss", .int32 5)]
    ∃ p rest, compile superiors = .ok p ∧
      p.stages = rootStage "people" :: (lookupStages superiorsOfPeople ++ rest) ∧
      Stage.runAll collection [rootStage "people"] (collection "people") =
        .ok [[("people", .document person)]] ∧
      Stage.runAll collection (lookupStages superiorsOfPeople) [[("people", .document person)]] =
        .ok [[("people", .array [])]] ∧
      ((Database.ofConnection .sound).execute superiors ⟨⟨onePerson, [], []⟩, 0⟩).1 =
        ⟨[Row.ofJoined p.layout [("people", .array [])]], .ok ()⟩ :=
  ⟨_, _, rfl, rfl, rfl, by decide +kernel, Outcome.ext (by decide +kernel) (by decide +kernel)⟩

end Pipeline

end DocQuery
