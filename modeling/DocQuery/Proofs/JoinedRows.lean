import DocQuery.Proofs.JoinedReads
import DocQuery.Proofs.PlainReads
import DocQuery.Proofs.RowReads
import Mathlib.Data.List.Nodup

/-!
# What the rows of a joined read hold

A row of a join holds under the name of the base collection a document, and under the key of a join
what this attached: one document if rows without a match are dropped, the list of all of them
otherwise (`exists_attached`). A caller sees such a row through the key of a field, whatever else
the row holds, so what two rows read under a key agrees as soon as the key holds the same in both.

`Database.exists_of_joinedRead` takes a joined read that succeeded apart: its rows are those of the
join that were selected, each projected. How many rows there are is of no concern here, since a page
that a stage cannot write still takes its rows from those that the filter selects
(`Stage.selected_of_selectionStages`).
-/

namespace DocQuery

/-! ### Rows of joins -/

/-- What a join attaches to a row under its key: a document of the foreign collection, if rows
without a match are dropped, or the list of all its documents that belong to the row. -/
inductive Attached (foreign : List Document) : (required : Bool) → Value → Prop
  | one {d : Document} (h : d ∈ foreign) : Attached foreign true (.document d)
  | all {ds : List Document} (h : ds ⊆ foreign) : Attached foreign false (.array (ds.map .document))

section Extend

variable (documents : String → List Document)

theorem extendAll_append (before after : List Lookup) (rows : List Document) :
    extendAll documents (before ++ after) rows =
      extendAll documents after (extendAll documents before rows) :=
  List.foldl_append

/-- A join puts what it attaches at the end of a row. -/
private theorem Lookup.exists_attached_of_mem_extend {l : Lookup} {foreign : List Document}
    {row row' : Document} (h : row' ∈ l.extend foreign row) :
    ∃ v, Attached foreign l.required v ∧ row' = row ++ [(l.key, v)] := by
  rw [extend] at h
  split at h
  · next hrequired =>
    obtain ⟨f, hf, rfl⟩ := List.mem_map.mp h
    exact ⟨.document f, hrequired ▸ .one (List.mem_filter.mp hf).1, rfl⟩
  · next hrequired =>
    rw [Bool.eq_false_iff.mpr hrequired]
    exact ⟨_, .all List.filter_sublist.subset, List.mem_singleton.mp h⟩

/-- What joins add to a row stands behind it, under their keys. -/
private theorem exists_append_of_mem_extendAll {ls : List Lookup} {rows : List Document}
    {row : Document} (h : row ∈ extendAll documents ls rows) :
    ∃ start ∈ rows, ∃ added : Document, row = start ++ added ∧ added.keys = ls.map (·.key) := by
  induction ls generalizing rows with
  | nil => exact ⟨row, h, [], (List.append_nil row).symm, rfl⟩
  | cons l ls ih =>
    obtain ⟨middle, hmiddle, added, rfl, hadded⟩ := ih h
    obtain ⟨start, hstart, hmiddle⟩ := List.mem_flatMap.mp hmiddle
    obtain ⟨v, -, rfl⟩ := Lookup.exists_attached_of_mem_extend hmiddle
    refine ⟨start, hstart, (l.key, v) :: added, ?_, congrArg (l.key :: ·) hadded⟩
    rw [List.append_assoc, List.singleton_append]

/-- **Rows of joins** hold under the name of the base collection one of its documents, and under the
key of each join what it attached, a list exactly if it is not required. -/
theorem exists_attached {schema : String} {ls : List Lookup}
    (hnodup : (schema :: ls.map (·.key)).Nodup) {row : Document}
    (hrow : row ∈ joinedRows documents schema ls) {key : String}
    (hkey : key ∈ schema :: ls.map (·.key)) :
    ∃ name required v, row.value? key = some v ∧ Attached (documents name) required v ∧
      (required = false ↔ ∃ l ∈ ls, key = l.key ∧ l.required = false) := by
  rcases List.mem_cons.mp hkey with rfl | hkey
  · obtain ⟨start, hstart, added, rfl, -⟩ := exists_append_of_mem_extendAll documents hrow
    obtain ⟨d, hd, rfl⟩ := List.mem_map.mp hstart
    refine ⟨key, true, .document d, ?_, .one hd, iff_of_false nofun ?_⟩
    · rw [Document.under, List.singleton_append, Document.value?_cons, if_pos rfl]
    · rintro ⟨l, hl, rfl, -⟩
      exact (List.nodup_cons.mp hnodup).1 (List.mem_map_of_mem hl)
  · -- What the joins before this one added does not have its key.
    have hsame : ∀ l ∈ ls, ∀ other ∈ ls, l.key = other.key → l = other :=
      fun _ hl _ hother => List.inj_on_of_nodup_map (List.nodup_cons.mp hnodup).2 hl hother
    obtain ⟨l, hl, rfl⟩ := List.mem_map.mp hkey
    obtain ⟨before, after, rfl⟩ := List.append_of_mem hl
    rw [joinedRows, extendAll_append] at hrow
    change row ∈ extendAll documents after
      ((extendAll documents before _).flatMap (l.extend (documents l.schema))) at hrow
    obtain ⟨extended, hextended, behind, rfl, -⟩ := exists_append_of_mem_extendAll documents hrow
    obtain ⟨made, hmade, hextended⟩ := List.mem_flatMap.mp hextended
    obtain ⟨v, hv, rfl⟩ := Lookup.exists_attached_of_mem_extend hextended
    obtain ⟨start, hstart, added, rfl, hadded⟩ := exists_append_of_mem_extendAll documents hmade
    obtain ⟨d, -, rfl⟩ := List.mem_map.mp hstart
    have hkeys : Document.keys (d.under schema ++ added) = schema :: before.map (·.key) := by
      rw [Document.keys, List.map_append]
      exact congrArg (schema :: ·) hadded
    have hnew : l.key ∉ Document.keys (d.under schema ++ added) := by
      rw [List.map_append, ← List.cons_append] at hnodup
      rw [hkeys]
      intro hmem
      exact (List.nodup_append.mp hnodup).2.2 l.key hmem l.key List.mem_cons_self rfl
    refine ⟨l.schema, l.required, v, ?_, hv, fun hrequired => ⟨l, hl, rfl, hrequired⟩, ?_⟩
    · rw [List.append_assoc, List.singleton_append]
      exact Document.value?_append_cons hnew v behind
    · rintro ⟨other, hother, hkey, hrequired⟩
      rwa [hsame l hl other hother hkey]

end Extend

/-- What a row reads under a key depends on what it holds there alone. -/
theorem Row.valueUnder?_congr {row row' : Document} {key : String}
    (h : row.value? key = row'.value? key) (path : String) :
    valueUnder? row key path = valueUnder? row' key path := by
  rw [valueUnder?, valueUnder?, h]

/-- A path through a key with a list of documents reads the list of what they hold. -/
theorem Document.read?_through_list {row : Document} {key : String} (hkey : Path.IsKey key)
    {ds : List Document} (h : row.value? key = some (.array (ds.map .document))) (path : String) :
    row.read? (Path.through key path) = some (.array (ds.filterMap (·.read? path))) := by
  obtain ⟨first, keys, hsegments⟩ := List.exists_cons_of_ne_nil (Path.segments_ne_nil path)
  rw [read?, Path.through, Path.segments_qualified hkey, Value.follow?_document, h]
  change (Value.array (ds.map .document)).follow? (Path.segments path) = _
  rw [hsegments, Value.follow?_array, List.filterMap_map, ← hsegments]
  rfl

/-- A field that can be qualified is one of a collection, and leads through its name. -/
theorem Field.exists_of_qualifiedPath {f : Field} {qualified : String}
    (h : f.qualifiedPath = .ok qualified) :
    ∃ schema path, f.schema? = some schema ∧ f.plainPath = .ok path ∧
      qualified = Path.through schema path := by
  rcases f with ⟨keys, schema⟩ | ⟨keys, schema, _ | space⟩ | text
  · obtain ⟨names, hnames, h⟩ := bind_eq_ok_iff.mp h
    obtain rfl := Except.ok.inj h
    exact ⟨schema, Path.ofKeys names, rfl, bind_eq_ok_iff.mpr ⟨names, hnames, rfl⟩, rfl⟩
  · obtain ⟨names, hnames, h⟩ := bind_eq_ok_iff.mp h
    obtain rfl := Except.ok.inj h
    exact ⟨schema, Path.ofKeys names, rfl, bind_eq_ok_iff.mpr ⟨names, hnames, rfl⟩, rfl⟩
  · cases h
  · cases h

/-! ### Joined reads -/

/-- The rows that the stages of a selection deliver were among its rows, and satisfy its filter. -/
theorem Stage.selected_of_selectionStages [RegexEngine] {collection : String → List Document}
    {sel : Selection} {rows found : List Document}
    (h : runAll collection (Pipeline.selectionStages sel) rows = .ok found) :
    ∀ row ∈ found, row ∈ rows ∧ row.satisfies sel.filter = .ok true := by
  rw [runAll_selectionStages_eq] at h
  obtain ⟨selected, hselected, h⟩ := bind_eq_ok_iff.mp h
  obtain ⟨sorted, hsorted, h⟩ := bind_eq_ok_iff.mp h
  obtain rfl := Except.ok.inj h
  obtain ⟨sorted', hsorted', hperm⟩ := Selection.exists_order sel.keys selected
  obtain rfl := Except.ok.inj (hsorted'.symm.trans hsorted)
  intro row hrow
  exact (Document.mem_selectFrom_iff hselected).mp
    (hperm.subset ((Pipeline.cut_sublist _ _ _).subset hrow))

namespace Database

section JoinedRead

variable {db : Database} {s : Server} {cat : Catalog} {q : Query} {ls : List Lookup}
  (hsound : db.connection.faults = none)
  (hcat : s.store.catalog? db.connection.handle = some cat) (hread : q.action = .read)
  (hjoins : q.joins ≠ []) (hls : Join.lookups q.joins = .ok ls)
  (hnodup : (q.schema :: ls.map (·.key)).Nodup)
  (hkeys : ∀ key ∈ q.schema :: ls.map (·.key), Path.IsKey key)
  (hschema : isOperator q.schema = false)

include hsound hcat hread hjoins hls hnodup hkeys hschema

/-- **Joined reads** deliver a row for each row of the join that they select, projected, or fail
without a row. -/
theorem execute_joinedRead [RegexEngine] {sel : Selection} {listed : Document}
    (hsel : q.selection .qualified = .ok sel) (hlisted : Pipeline.projection q ls = .ok listed) :
    (db.execute q s).1 =
      .ofRead (fun row => .ofJoined (.ofLookups ls) (Document.project listed row))
        (Stage.runAll (fun name => (cat.collection name).documents) (Pipeline.selectionStages sel)
          (joinedRows (fun name => (cat.collection name).documents) q.schema ls)) := by
  have hplan : q.compile = .ok (.join
      ⟨q.schema, Pipeline.stagesOf q.schema ls sel listed⟩ (.ofLookups ls)) := by
    rw [Query.compile_of_read hread, QueryPlan.ofRead_joined hjoins, hls, hsel]
    change (Pipeline.projection q ls >>= _) = _
    rw [hlisted]
    rfl
  have hjoined :=
    Stage.runAll_joinedRows (fun name => (cat.collection name).documents) hnodup hkeys
  rw [execute, hplan]
  change (db.run (.join _ _) s).1 = _
  rw [run_join hcat hsound, Catalog.aggregate, Stage.runAll_stagesOf _ hschema sel listed hjoined]
  rcases Stage.runAll (fun name => (cat.collection name).documents) (Pipeline.selectionStages sel)
    (joinedRows (fun name => (cat.collection name).documents) q.schema ls) with e | found
  · rfl
  · change Outcome.mk ((found.map _).map _) _ = Outcome.mk (found.map _) _
    rw [List.map_map]
    rfl

/-- **A joined read that succeeds** delivers rows of the join that were selected, each projected. -/
theorem exists_of_joinedRead [RegexEngine] {rows : List Row}
    (h : (db.execute q s).1 = ⟨rows, .ok ()⟩) :
    ∃ sel listed found, q.selection .qualified = .ok sel ∧
      Pipeline.projection q ls = .ok listed ∧
      Stage.runAll (fun name => (cat.collection name).documents) (Pipeline.selectionStages sel)
        (joinedRows (fun name => (cat.collection name).documents) q.schema ls) = .ok found ∧
      rows = found.map fun row => .ofJoined (.ofLookups ls) (Document.project listed row) := by
  obtain ⟨plan, hplan, -⟩ := exists_plan_of_ending (congrArg Outcome.ending h)
  obtain ⟨sel, listed, hsel, hlisted, -⟩ := Query.exists_of_compile_joined hread hjoins hplan hls
  rw [execute_joinedRead hsound hcat hread hjoins hls hnodup hkeys hschema hsel hlisted] at h
  obtain ⟨found, hfound, hrows⟩ := Outcome.ofRead_eq_ok_iff.mp h
  exact ⟨sel, listed, found, hsel, hlisted, hfound, hrows⟩

end JoinedRead

end Database

end DocQuery
