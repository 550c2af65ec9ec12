import DocQuery.Proofs.Deliveries
import DocQuery.Proofs.JoinedReads
import DocQuery.Proofs.RowReads
import DocQuery.Runtime.Regex.Engine
import Mathlib.Control.Monad.Basic
import Mathlib.Data.Nat.Init

/-!
# Pages partition a read

A read without a page can be executed page by page instead: the same query with a limit, and with
the multiples of the limit as offsets, until a page is empty. `Database.ReadsPages` is this loop,
with the rows that it delivers and the server that it leaves.

The main theorem, `Database.pages_partition`, says that the pages are the rows of the whole read, in
its order. A plain read cuts the page from the documents that its find command selects, and a joined
read by stages of its pipeline, before the projection; either way a page of the rows is delivered
(`Database.execute_page`). Executing a read enters the journal and changes nothing else
(`Database.catalog?_execute_read`), so every page is cut from the same rows.
-/

namespace DocQuery

/-! ### A page of a read -/

/-- The query for a page: the rows from an offset on, up to a number of them. -/
def Query.page (q : Query) (offset size : UInt64) : Query :=
  { q with offsets := [.count offset], limits := [.count size] }

/-- The selection of a page. -/
def Selection.page (sel : Selection) (offset size : UInt64) : Selection :=
  { sel with offset := some offset, limit := some size }

/-- The query for a page selects a page of what the query selects. -/
private theorem Query.selection_page (mode : Addressing) {q : Query} (hoffsets : q.offsets = [])
    (hlimits : q.limits = []) (offset size : UInt64) :
    (q.page offset size).selection mode = (q.selection mode).map (·.page offset size) := by
  rw [selection, selection, hoffsets, hlimits]
  change (Filter.compileList mode q.filters >>= _) = _
  rcases Filter.compileList mode q.filters with e | filter
  · rfl
  change (SortBy.compile mode q.sorts >>= _) = _
  rcases SortBy.compile mode q.sorts with e | keys <;> rfl

section Cut

variable {sel : Selection} (hoffset : sel.offset = none) (hlimit : sel.limit = none)
  (offset size : UInt64)

include hoffset hlimit

/-- Selecting a page cuts it from all that is selected. -/
private theorem Selection.apply_page [RegexEngine] {ds found : List Document}
    (h : sel.apply ds = .ok found) :
    (sel.page offset size).apply ds = .ok ((found.drop offset.toNat).take size.toNat) := by
  rw [apply, hoffset, hlimit] at h
  obtain ⟨selected, hselected, h⟩ := bind_eq_ok_iff.mp h
  obtain ⟨sorted, hsorted, h⟩ := bind_eq_ok_iff.mp h
  obtain rfl : sorted = found := Except.ok.inj h
  change (Document.selectFrom sel.filter ds >>= fun selected =>
    Selection.order sel.keys selected >>= fun sorted => pure _) = _
  rw [hselected]
  change (Selection.order sel.keys selected >>= fun sorted => pure _) = _
  rw [hsorted]
  rfl

/-- The stages of a page cut it from all rows, where there are no more of these than numbers that
can be written. -/
private theorem Stage.runAll_stagesOf_page [RegexEngine] (collection : String → List Document)
    {schema : String} {ls : List Lookup} {listed : Document} {ds rows : List Document}
    (h : runAll collection (Pipeline.stagesOf schema ls sel listed) ds = .ok rows)
    (hsize : rows.length < 2 ^ 63) :
    runAll collection (Pipeline.stagesOf schema ls (sel.page offset size) listed) ds =
      .ok ((rows.drop offset.toNat).take size.toNat) := by
  rw [Pipeline.stagesOf_eq, runAll_projectLast] at h ⊢
  rw [hoffset, hlimit] at h
  change (runAll collection (Pipeline.unpagedStages schema ls sel ++ []) ds).map _ = _ at h
  change (runAll collection (Pipeline.unpagedStages schema ls sel ++
    (Pipeline.skipStages (some offset) ++ Pipeline.limitStages (some size))) ds).map _ = _
  rw [List.append_nil] at h
  rw [runAll_append]
  -- The page is cut before the projection, which changes neither the number nor the order of rows.
  rcases hfound : runAll collection (Pipeline.unpagedStages schema ls sel) ds with e | found <;>
    rw [hfound] at h
  · cases h
  obtain rfl := Except.ok.inj h
  rw [List.length_map] at hsize
  change (runAll collection (_ ++ _) found).map _ = _
  rw [runAll_pageStages collection _ _ hsize]
  exact congrArg Except.ok (Collection.page_map _ _ _ found).symm

end Cut

namespace Database

variable {db : Database} {q : Query}

/-- A read that ends well ran on a handle with a catalog. -/
private theorem exists_catalog_of_read [RegexEngine] {s : Server} (hread : q.action = .read)
    (h : (db.execute q s).1.ending = .ok ()) :
    ∃ cat, s.store.catalog? db.connection.handle = some cat := by
  obtain ⟨plan, hplan, hrun⟩ := exists_plan_of_ending h
  obtain ⟨row, hrow, -⟩ := Query.wraps_of_read hread hplan
  obtain ⟨ds, ending, harrives, hresult⟩ := db.run_read s hrow
  rw [hrun, hresult] at h
  rcases hcat : s.store.catalog? db.connection.handle with _ | cat
  · rw [replyTo, Store.perform_command, hcat] at harrives
    cases harrives
    cases h
  · exact ⟨cat, rfl⟩

/-- **Reads change no catalog.** -/
theorem catalog?_execute_read [RegexEngine] (hread : q.action = .read) (s : Server) (h : Handle) :
    (db.execute q s).2.store.catalog? h = s.store.catalog? h := by
  rw [execute]
  rcases hplan : q.compile with e | plan
  · rfl
  obtain ⟨row, hrow, -⟩ := Query.wraps_of_read hread hplan
  change (db.run plan s).2.store.catalog? h = _
  cases plan with
  | find schema command => rw [store_run, Store.perform_of_reads fun cat => rfl]; rfl
  | join command layout => rw [store_run, Store.perform_of_reads fun cat => rfl]; rfl
  | _ => cases hrow

section Page

variable [RegexEngine] {s t : Server} {rows : List Row} (hsound : db.connection.faults = none)
  (hread : q.action = .read) (hoffsets : q.offsets = []) (hlimits : q.limits = [])
  (hall : (db.execute q s).1 = ⟨rows, .ok ()⟩)
  (hsame : t.store.catalog? db.connection.handle = s.store.catalog? db.connection.handle)
  (offset size : UInt64)

include hsound hread hoffsets hlimits hall hsame

/-- A plain read delivers a page of its rows. -/
private theorem execute_page_plain (hjoins : q.joins = []) :
    (db.execute (q.page offset size) t).1 =
      ⟨(rows.drop offset.toNat).take size.toNat, .ok ()⟩ := by
  obtain ⟨cat, hcat⟩ := exists_catalog_of_read (s := s) hread (by rw [hall])
  obtain ⟨sel, ds, hsel, hds, rfl⟩ := exists_of_plainRead hsound hcat hread hjoins hall
  obtain ⟨hoffset, hlimit⟩ := Query.page_of_selection hsel hoffsets hlimits
  have hpage : (q.page offset size).selection .plain = .ok (sel.page offset size) := by
    rw [Query.selection_page .plain hoffsets hlimits, hsel]
    rfl
  rw [execute_plainRead (q := q.page offset size) hsound (hsame.trans hcat) hread hjoins, hpage]
  change Outcome.ofRead (Row.ofDocument q.schema) ((sel.page offset size).apply
    (cat.collection q.schema).documents) = _
  rw [Selection.apply_page hoffset hlimit offset size hds, Outcome.ofRead, List.map_take,
    List.map_drop]

/-- A joined read delivers a page of its rows, unless these are more than can be written. -/
private theorem execute_page_joined (hjoins : q.joins ≠ []) (hsize : rows.length < 2 ^ 63) :
    (db.execute (q.page offset size) t).1 =
      ⟨(rows.drop offset.toNat).take size.toNat, .ok ()⟩ := by
  have hending : (db.execute q s).1.ending = .ok () := by rw [hall]
  obtain ⟨cat, hcat⟩ := exists_catalog_of_read hread hending
  obtain ⟨plan, hplan, hrun⟩ := exists_plan_of_ending hending
  rw [hrun] at hall
  rw [Query.compile_of_read hread, QueryPlan.ofRead_joined hjoins] at hplan
  obtain ⟨ls, hls, hplan⟩ := bind_eq_ok_iff.mp hplan
  obtain ⟨sel, hsel, hplan⟩ := bind_eq_ok_iff.mp hplan
  obtain ⟨listed, hlisted, hplan⟩ := bind_eq_ok_iff.mp hplan
  obtain rfl := Except.ok.inj hplan
  rw [run_join hcat hsound] at hall
  obtain ⟨ds, hds, rfl⟩ := Outcome.ofRead_eq_ok_iff.mp hall
  obtain ⟨hoffset, hlimit⟩ := Query.page_of_selection hsel hoffsets hlimits
  have hpage : (q.page offset size).selection .qualified = .ok (sel.page offset size) := by
    rw [Query.selection_page .qualified hoffsets hlimits, hsel]
    rfl
  have hcompile : (q.page offset size).compile = .ok (.join ⟨q.schema,
      Pipeline.stagesOf q.schema ls (sel.page offset size) listed⟩ (.ofLookups ls)) := by
    rw [Query.compile_of_read (q := q.page offset size) hread,
      QueryPlan.ofRead_joined (q := q.page offset size) hjoins, hpage]
    change (Join.lookups q.joins >>= fun ls => _ >>= fun sel => Pipeline.projection q ls >>= _) = _
    rw [hls]
    change (Pipeline.projection q ls >>= _) = _
    rw [hlisted]
    rfl
  rw [List.length_map] at hsize
  rw [execute, hcompile]
  change (db.run (.join _ _) t).1 = _
  rw [run_join (hsame.trans hcat) hsound, Catalog.aggregate,
    Stage.runAll_stagesOf_page hoffset hlimit offset size _ hds hsize, Outcome.ofRead,
    List.map_take, List.map_drop]

/-- **A page of a read** holds the rows of the whole read from its offset on, up to its size. -/
theorem execute_page (hsize : rows.length < 2 ^ 63) :
    (db.execute (q.page offset size) t).1 =
      ⟨(rows.drop offset.toNat).take size.toNat, .ok ()⟩ := by
  by_cases hjoins : q.joins = []
  · exact execute_page_plain hsound hread hoffsets hlimits hall hsame offset size hjoins
  · exact execute_page_joined hsound hread hoffsets hlimits hall hsame offset size hjoins hsize

end Page

/-! ### Page after page -/

/-- Reading a query page by page, from an offset on and until a page is empty. Started on a server,
it delivers rows and leaves a server. -/
inductive ReadsPages [RegexEngine] (db : Database) (q : Query) (size : UInt64) :
    UInt64 → Server → List Row → Server → Prop
  /-- An empty page is the last. -/
  | last {offset : UInt64} {s t : Server}
      (h : db.execute (q.page offset size) s = (⟨[], .ok ()⟩, t)) :
      ReadsPages db q size offset s [] t
  /-- After any other page the next one follows. -/
  | more {offset : UInt64} {s t u : Server} {page rows : List Row}
      (h : db.execute (q.page offset size) s = (⟨page, .ok ()⟩, t)) (hpage : page ≠ [])
      (hfits : offset.toNat + size.toNat < 2 ^ 64)
      (hrest : ReadsPages db q size (offset + size) t rows u) :
      ReadsPages db q size offset s (page ++ rows) u

/-- Reading page by page has one result. -/
private theorem ReadsPages.unique [RegexEngine] {size offset : UInt64} {s t t' : Server}
    {rows rows' : List Row} (h : db.ReadsPages q size offset s rows t)
    (h' : db.ReadsPages q size offset s rows' t') :
    rows = rows' ∧ t = t' := by
  induction h generalizing rows' t' with
  | last h =>
    cases h' with
    | last h' =>
      obtain ⟨-, rfl⟩ := Prod.mk.inj (h.symm.trans h')
      exact ⟨rfl, rfl⟩
    | more h' hpage =>
      obtain ⟨hrows, -⟩ := Prod.mk.inj (h.symm.trans h')
      exact absurd (congrArg Outcome.rows hrows).symm hpage
  | more h hpage hfits hrest ih =>
    cases h' with
    | last h' =>
      obtain ⟨hrows, -⟩ := Prod.mk.inj (h.symm.trans h')
      exact absurd (congrArg Outcome.rows hrows) hpage
    | more h' hpage' hfits' hrest' =>
      obtain ⟨hrows, rfl⟩ := Prod.mk.inj (h.symm.trans h')
      obtain ⟨rfl, rfl⟩ := ih hrest'
      exact ⟨congrArg (fun o => Outcome.rows o ++ _) hrows, rfl⟩

section Pages

variable [RegexEngine] {s : Server} {rows : List Row} (hsound : db.connection.faults = none)
  (hread : q.action = .read) (hoffsets : q.offsets = []) (hlimits : q.limits = [])
  (hall : (db.execute q s).1 = ⟨rows, .ok ()⟩) (hsize : rows.length < 2 ^ 63)
  {size : UInt64} (hpos : 0 < size)

include hsound hread hoffsets hlimits hall hsize hpos

/-- The pages from an offset on hold the rows from there on, on every server that has the catalogs
of the one that was read. -/
private theorem exists_readsPages {offset : UInt64} (hoffset : offset = 0 ∨ size ≤ offset)
    {t : Server} (hsame : ∀ h, t.store.catalog? h = s.store.catalog? h) :
    ∃ u, db.ReadsPages q size offset t (rows.drop offset.toNat) u ∧
      ∀ h, u.store.catalog? h = s.store.catalog? h := by
  -- By induction on the number of rows left. An offset is a multiple of the size, so that the next
  -- one is a number of 64 bits as long as rows are left.
  have hpos : 0 < size.toNat := UInt64.lt_iff_toNat_lt.mp hpos
  induction hleft : rows.length - offset.toNat using Nat.strong_induction_on
    generalizing offset t with
  | _ left ih =>
    have hpage : (db.execute (q.page offset size) t).1 = _ :=
      execute_page hsound hread hoffsets hlimits hall (hsame db.connection.handle) offset size hsize
    have hnext : ∀ h, (db.execute (q.page offset size) t).2.store.catalog? h =
        s.store.catalog? h := fun h =>
      (catalog?_execute_read (q := q.page offset size) hread t h).trans (hsame h)
    by_cases hend : rows.length ≤ offset.toNat
    · rw [List.drop_eq_nil_of_le hend, List.take_nil] at hpage
      rw [List.drop_eq_nil_of_le hend]
      exact ⟨_, .last (Prod.ext hpage rfl), hnext⟩
    · have hfits : offset.toNat + size.toNat < 2 ^ 64 := by
        rcases hoffset with rfl | hle
        · exact Nat.lt_of_le_of_lt (Nat.le_of_eq (Nat.zero_add _)) size.toNat_lt
        · have hle : size.toNat ≤ offset.toNat := UInt64.le_iff_toNat_le.mp hle
          omega
      have hsum : (offset + size).toNat = offset.toNat + size.toNat := by
        rw [UInt64.toNat_add, Nat.mod_eq_of_lt hfits]
      have hmultiple : size ≤ offset + size := by
        rw [UInt64.le_iff_toNat_le, hsum]
        exact Nat.le_add_left _ _
      obtain ⟨u, hrest, hu⟩ :=
        ih (rows.length - (offset + size).toNat) (by omega) (.inr hmultiple) hnext rfl
      refine ⟨u, ?_, hu⟩
      have hsplit : rows.drop offset.toNat = (rows.drop offset.toNat).take size.toNat ++
          rows.drop (offset + size).toNat := by
        rw [hsum, ← List.drop_drop, List.take_append_drop]
      have hne : (rows.drop offset.toNat).take size.toNat ≠ [] := by
        rw [ne_eq, List.take_eq_nil_iff, List.drop_eq_nil_iff]
        omega
      rw [hsplit]
      exact .more (Prod.ext hpage rfl) hne hfits hrest

/-- **Pages partition a read.** Let a read without offsets and limits, plain or joined, succeed on a
store. Executing it page by page then ends, for every size of the pages, with an empty page, and the
pages together are the rows of the whole read in its order, with none lost and none repeated. It
leaves every catalog of the store as it is. -/
theorem pages_partition :
    (∃ t, db.ReadsPages q size 0 s rows t ∧ ∀ h, t.store.catalog? h = s.store.catalog? h) ∧
      ∀ rows' t, db.ReadsPages q size 0 s rows' t → rows' = rows := by
  obtain ⟨t, hpages, ht⟩ :=
    exists_readsPages hsound hread hoffsets hlimits hall hsize hpos (.inl rfl) fun _ => rfl
  exact ⟨⟨t, hpages, ht⟩, fun rows' t' hpages' => (hpages'.unique hpages).1⟩

end Pages

/-- The notes of each day with their authors, if they have any, the latest day first. -/
def notesByDay : Query where
  schema := "notes"
  action := .read
  joins := [.left "authors" (.identity "authors") (.single (.name "by") "notes")]
  sorts := [.descending (.single (.name "day") "notes")]

/-- A server with three notes, of which two are of one day. -/
def notesServer : Server :=
  let notes : List Document :=
    [[(idKey, .int32 1), ("day", .int32 3)],
      [(idKey, .int32 2), ("day", .int32 4), ("by", .int32 7)],
      [(idKey, .int32 3), ("day", .int32 3)]]
  ⟨⟨⟨[("notes", ⟨notes, []⟩), ("authors", ⟨[[(idKey, .int32 7)]], []⟩)]⟩, [], []⟩, 0⟩

attribute [local instance] Runtime.engine

/-- Read by pages of one row, the notes come in the order in which they are read at once. -/
theorem pages_partition_notesByDay :
    let db := ofConnection .sound
    ∃ rows t, (db.execute notesByDay notesServer).1 = ⟨rows, .ok ()⟩ ∧
      rows.map (·.value (.identity "notes")) = [.ok (.int32 2), .ok (.int32 1), .ok (.int32 3)] ∧
      db.ReadsPages notesByDay 1 0 notesServer rows t := by
  intro db
  have hending : (db.execute notesByDay notesServer).1.ending.toOption = some () := by
    decide +kernel
  have hvalues : (db.execute notesByDay notesServer).1.rows.map (·.value (.identity "notes")) =
      [.ok (.int32 2), .ok (.int32 1), .ok (.int32 3)] := by decide +kernel
  have hsize : (db.execute notesByDay notesServer).1.rows.length < 2 ^ 63 := by
    rw [← List.length_map, hvalues]
    decide
  have hall := Outcome.eq_of_ending hending
  have hsound : db.connection.faults = none := rfl
  have hpos : (0 : UInt64) < 1 := by decide
  obtain ⟨⟨t, hpages, -⟩, -⟩ := pages_partition hsound rfl rfl rfl hall hsize hpos
  exact ⟨_, t, hall, hvalues, hpages⟩

end Database

end DocQuery
