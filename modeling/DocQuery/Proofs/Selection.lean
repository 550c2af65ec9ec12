import DocQuery.Catalog
import DocQuery.Proofs.RowPaths
import DocQuery.QueryPlan
import Mathlib.Algebra.Group.Nat.Defs

/-!
# What a read selects

A read selects documents by a filter, puts them in order and cuts them to a page. `Selection` holds
the four parts of this once the query is resolved, and `Selection.apply` is what they do to a list
of documents. Both ways in which a read can run come down to it: a find command applies the
selection of its parts to the documents of a collection (`Collection.find_command`), and the stages
of a pipeline between the joins and the projection apply it to rows
(`Stage.runAll_selectionStages`), as long as there are not more rows than a stage can count.

The lemmas about single stages say what each does to a list of documents, without a bound. They hold
for every query, so that whatever runs a pipeline can use them.
-/

namespace DocQuery

/-- How a read selects, orders and cuts documents. -/
structure Selection where
  filter : Document
  keys : Option SortKeys
  offset : Option UInt64
  limit : Option UInt64

/-- What a query selects, with its fields under an addressing. -/
def Query.selection (mode : Addressing) (q : Query) : Except Error Selection := do
  let filter ← Filter.compileList mode q.filters
  let keys ← SortBy.compile mode q.sorts
  let offset ← Limit.first q.offsets
  let limit ← Limit.first q.limits
  pure ⟨filter, keys, offset, limit⟩

namespace Selection

/-- Put documents in the order of a sort document, if there is one. -/
def order (keys : Option SortKeys) (ds : List Document) : Except StoreError (List Document) :=
  match keys with
  | none => .ok ds
  | some keys => Document.sortBy keys.toDocument ds

/-- The documents that satisfy the filter, in order, without those before and after the page. -/
def apply [RegexEngine] (sel : Selection) (ds : List Document) :
    Except StoreError (List Document) := do
  let selected ← Document.selectFrom sel.filter ds
  let sorted ← order sel.keys selected
  pure (Collection.page sel.offset sel.limit sorted)

/-- The command that finds what is selected in a collection. -/
def command (name : String) (sel : Selection) : FindCommand :=
  ⟨name, sel.filter, sel.keys.map (·.toDocument), sel.offset, sel.limit⟩

end Selection

/-- **Find commands** apply the selection that they are made of. -/
theorem Collection.find_command [RegexEngine] (name : String) (sel : Selection) (c : Collection) :
    c.find (sel.command name) = sel.apply c.documents := by
  obtain ⟨filter, keys, offset, limit⟩ := sel
  cases keys <;> rfl

/-- A find command in a catalog applies its selection to the documents of its collection. -/
theorem Catalog.find_command [RegexEngine] (name : String) (sel : Selection) (cat : Catalog) :
    cat.find (sel.command name) = sel.apply (cat.collection name).documents :=
  Collection.find_command name sel (cat.collection name)

/-! ### Plans -/

/-- The filter of a selection is made of the filters of the query. -/
theorem Query.filter_of_selection {mode : Addressing} {q : Query} {sel : Selection}
    (h : q.selection mode = .ok sel) : Filter.compileList mode q.filters = .ok sel.filter := by
  obtain ⟨filter, hfilter, h⟩ := bind_eq_ok_iff.mp h
  obtain ⟨keys, -, h⟩ := bind_eq_ok_iff.mp h
  obtain ⟨offset, -, h⟩ := bind_eq_ok_iff.mp h
  obtain ⟨limit, -, h⟩ := bind_eq_ok_iff.mp h
  obtain rfl := Except.ok.inj h
  exact hfilter

/-- A query without offsets and limits selects no page. -/
theorem Query.page_of_selection {mode : Addressing} {q : Query} {sel : Selection}
    (h : q.selection mode = .ok sel) (hoffsets : q.offsets = []) (hlimits : q.limits = []) :
    sel.offset = none ∧ sel.limit = none := by
  rw [selection, hoffsets, hlimits] at h
  obtain ⟨filter, -, h⟩ := bind_eq_ok_iff.mp h
  obtain ⟨keys, -, h⟩ := bind_eq_ok_iff.mp h
  obtain rfl := Except.ok.inj h
  exact ⟨rfl, rfl⟩

/-- The plan of a plain read is the command of its selection. -/
theorem QueryPlan.ofRead_plain {q : Query} (hjoins : q.joins = []) :
    ofRead q =
      (do
        let sel ← q.selection .plain
        pure (.find q.schema (sel.command q.schema))) := by
  rw [ofRead, hjoins, Query.selection]
  rcases Filter.compileList .plain q.filters with e | filter
  · rfl
  rcases SortBy.compile .plain q.sorts with e | keys
  · rfl
  rcases Limit.first q.offsets with e | offset
  · rfl
  rcases Limit.first q.limits with e | limit
  · rfl
  · rfl

namespace Pipeline

/-- The stages that select, order and cut rows. -/
def selectionStages (sel : Selection) : List Document :=
  filterStages sel.filter ++ sortStages sel.keys ++ skipStages sel.offset ++ limitStages sel.limit

/-- The stages of a read: nest, join, select and project. -/
def stagesOf (schema : String) (ls : List Lookup) (sel : Selection) (listed : Document) :
    List Document :=
  rootStage schema :: (ls.flatMap lookupStages ++ (selectionStages sel ++ [projectStage listed]))

/-- The stages of a read before those of its page. -/
def unpagedStages (schema : String) (ls : List Lookup) (sel : Selection) : List Document :=
  rootStage schema :: (ls.flatMap lookupStages ++ (filterStages sel.filter ++ sortStages sel.keys))

/-- A read is cut to its page, and then projected, after everything else. -/
theorem stagesOf_eq (schema : String) (ls : List Lookup) (sel : Selection) (listed : Document) :
    stagesOf schema ls sel listed =
      unpagedStages schema ls sel ++ (skipStages sel.offset ++ limitStages sel.limit) ++
        [projectStage listed] := by
  simp only [stagesOf, unpagedStages, selectionStages, List.cons_append, List.append_assoc]

/-- **Pipelines are made** of the joins, the selection and the projection of a query, which are
resolved in this order. -/
theorem compile_eq (q : Query) :
    compile q =
      (do
        let ls ← Join.lookups q.joins
        let sel ← q.selection .qualified
        let listed ← projection q ls
        pure ⟨stagesOf q.schema ls sel listed, .ofLookups ls⟩) := by
  rw [compile, Query.selection]
  rcases Join.lookups q.joins with e | ls
  · rfl
  rcases Filter.compileList .qualified q.filters with e | filter
  · rfl
  rcases SortBy.compile .qualified q.sorts with e | keys
  · rfl
  rcases Limit.first q.offsets with e | offset
  · rfl
  rcases Limit.first q.limits with e | limit
  · rfl
  rcases hlisted : projection q ls with e | listed
  · simp only [bind, Except.bind, pure, Except.pure, hlisted]
  · simp only [bind, Except.bind, pure, Except.pure, hlisted, stagesOf, selectionStages,
      List.cons_append, List.append_assoc]

end Pipeline

/-- The plan of a joined read is the pipeline of its joins, its selection and its projection. -/
theorem QueryPlan.ofRead_joined {q : Query} (hjoins : q.joins ≠ []) :
    ofRead q =
      (do
        let ls ← Join.lookups q.joins
        let sel ← q.selection .qualified
        let listed ← Pipeline.projection q ls
        pure (.join ⟨q.schema, Pipeline.stagesOf q.schema ls sel listed⟩ (.ofLookups ls))) := by
  have hread : ofRead q =
      (do
        let p ← Pipeline.compile q
        pure (.join ⟨q.schema, p.stages⟩ p.layout)) := by
    obtain ⟨j, js, hcons⟩ := List.exists_cons_of_ne_nil hjoins
    rw [ofRead, hcons]
  rw [hread, Pipeline.compile_eq]
  rcases Join.lookups q.joins with e | ls
  · rfl
  rcases q.selection .qualified with e | sel
  · rfl
  rcases hlisted : Pipeline.projection q ls with e | listed
  · simp only [bind, Except.bind, hlisted]
  · simp only [bind, Except.bind, pure, Except.pure, hlisted]

/-- The plan of a read. -/
theorem Query.compile_of_read {q : Query} (hread : q.action = .read) :
    q.compile = QueryPlan.ofRead q := by
  rw [compile, hread]

/-! ### Sort documents -/

/-- The values of a sort document of sort keys are directions. -/
private theorem SortKeys.exists_direction (keys : SortKeys) :
    ∀ e ∈ keys.toDocument, ∃ o : Direction, e.2 = o.toValue := by
  -- Sort documents are written key by key, each with a direction.
  have hfold : ∀ d : Document, (∀ e ∈ d, ∃ o : Direction, e.2 = o.toValue) →
      ∀ e ∈ keys.foldl (fun d key => d.put key.1 key.2.toValue) d,
        ∃ o : Direction, e.2 = o.toValue := by
    induction keys with
    | nil => exact fun d hd => hd
    | cons key keys ih =>
      exact fun d hd => ih _ (Document.forall_put (p := fun v => ∃ o : Direction, v = o.toValue) hd
        key.1 ⟨key.2, rfl⟩)
  exact hfold [] nofun

/-- The sort document of sort keys can be read. -/
private theorem SortKeys.exists_ofDocument_toDocument (keys : SortKeys) :
    ∃ ks, ofDocument keys.toDocument = .ok ks := by
  have hread : ∀ d : Document, (∀ e ∈ d, ∃ o : Direction, e.2 = o.toValue) →
      ∃ ks, ofDocument d = .ok ks := by
    intro d hd
    induction d with
    | nil => exact ⟨[], rfl⟩
    | cons e d ih =>
      obtain ⟨path, v⟩ := e
      obtain ⟨⟨o, ho⟩, hd⟩ := List.forall_mem_cons.mp hd
      obtain ⟨ks, hks⟩ := ih hd
      obtain rfl : v = o.toValue := ho
      refine ⟨(path, o) :: ks, ?_⟩
      rw [ofDocument, Direction.ofValue?_toValue, hks]
      rfl
  exact hread _ keys.exists_direction

/-- Ordering by compiled sort keys succeeds, and neither loses nor adds documents. -/
theorem Selection.exists_order (keys : Option SortKeys) (ds : List Document) :
    ∃ sorted, order keys ds = .ok sorted ∧ sorted.Perm ds := by
  rcases keys with _ | keys
  · exact ⟨ds, rfl, .refl ds⟩
  · obtain ⟨ks, hks⟩ := keys.exists_ofDocument_toDocument
    refine ⟨ks.sort ds, ?_, StableSort.sort_perm _ ds⟩
    rw [order, Document.sortBy, hks]
    rfl

/-! ### Selected documents -/

/-- A query document without entries selects everything. -/
theorem Document.selectFrom_nil [RegexEngine] (ds : List Document) : selectFrom [] ds = .ok ds := by
  induction ds with
  | nil => rfl
  | cons d ds ih =>
    rw [selectFrom, ih]
    rfl

namespace Selection

/-- The selection of everything, as it stands. -/
def everything : Selection := ⟨Filter.matchAll, none, none, none⟩

/-- A selection by a filter alone delivers what the filter selects. -/
theorem apply_filter [RegexEngine] (filter : Document) (ds : List Document) :
    apply ⟨filter, none, none, none⟩ ds = Document.selectFrom filter ds := by
  rw [apply]
  rcases Document.selectFrom filter ds with e | found <;> rfl

theorem apply_everything [RegexEngine] (ds : List Document) : everything.apply ds = .ok ds := by
  rw [everything, apply_filter, Filter.matchAll, Document.selectFrom_nil]

end Selection

/-- A query without filters, sorts, offsets and limits selects everything. -/
theorem Query.selection_everything (mode : Addressing) {q : Query} (hfilters : q.filters = [])
    (hsorts : q.sorts = []) (hoffsets : q.offsets = []) (hlimits : q.limits = []) :
    q.selection mode = .ok .everything := by
  rw [selection, hfilters, hsorts, hoffsets, hlimits]
  rfl

/-- Selecting adds no documents. -/
private theorem Document.length_le_of_selectFrom [RegexEngine] {query : Document}
    {ds found : List Document} (h : selectFrom query ds = .ok found) :
    found.length ≤ ds.length := by
  induction ds generalizing found with
  | nil =>
    obtain rfl := Except.ok.inj h
    exact Nat.le_refl 0
  | cons d ds ih =>
    obtain ⟨b, -, h⟩ := bind_eq_ok_iff.mp h
    obtain ⟨rest, hrest, h⟩ := bind_eq_ok_iff.mp h
    obtain rfl := Except.ok.inj h
    have hle : rest.length ≤ ds.length := ih hrest
    cases b
    · exact Nat.le_succ_of_le hle
    · exact Nat.succ_le_succ hle

/-- A selection holds the documents that satisfy its query document. -/
theorem Document.mem_selectFrom_iff [RegexEngine] {query d : Document} {ds found : List Document}
    (h : selectFrom query ds = .ok found) :
    d ∈ found ↔ d ∈ ds ∧ d.satisfies query = .ok true := by
  induction ds generalizing found with
  | nil =>
    obtain rfl := Except.ok.inj h
    simp
  | cons e ds ih =>
    obtain ⟨b, hb, h⟩ := bind_eq_ok_iff.mp h
    obtain ⟨rest, hrest, h⟩ := bind_eq_ok_iff.mp h
    obtain rfl := Except.ok.inj h
    have hrest := ih hrest
    by_cases hde : d = e
    · subst hde
      cases b <;> simp [hb, hrest]
    · cases b <;> simp [hde, hrest]

/-- A page takes documents from a list. -/
theorem Collection.page_sublist (skip limit : Option UInt64) (ds : List Document) :
    (page skip limit ds).Sublist ds := by
  have hdrop : (ds.drop (skip.getD 0).toNat).Sublist ds := List.drop_sublist _ _
  rcases limit with _ | n
  · exact hdrop
  · exact (List.take_sublist _ _).trans hdrop

theorem Collection.page_map (f : Document → Document) (skip limit : Option UInt64)
    (ds : List Document) : page skip limit (ds.map f) = (page skip limit ds).map f := by
  rcases limit with _ | n
  · exact List.map_drop.symm
  · change (List.drop _ (ds.map f)).take _ = (List.take _ (List.drop _ ds)).map f
    rw [List.map_take, List.map_drop]

/-- What a selection delivers comes from the documents that it is applied to, and satisfies its
filter. -/
theorem Selection.mem_and_satisfies_of_apply [RegexEngine] {sel : Selection}
    {ds found : List Document} (h : sel.apply ds = .ok found) {d : Document} (hd : d ∈ found) :
    d ∈ ds ∧ d.satisfies sel.filter = .ok true := by
  obtain ⟨selected, hselected, h⟩ := bind_eq_ok_iff.mp h
  obtain ⟨sorted, hsorted, h⟩ := bind_eq_ok_iff.mp h
  obtain rfl := Except.ok.inj h
  obtain ⟨sorted', hsorted', hperm⟩ := exists_order sel.keys selected
  obtain rfl := Except.ok.inj (hsorted.symm.trans hsorted')
  exact (Document.mem_selectFrom_iff hselected).mp
    (hperm.subset ((Collection.page_sublist _ _ _).subset hd))

/-- Without a page a selection delivers all that its filter selects, in some order. -/
theorem Selection.perm_of_apply [RegexEngine] {sel : Selection} (hoffset : sel.offset = none)
    (hlimit : sel.limit = none) {ds delivered : List Document}
    (h : sel.apply ds = .ok delivered) :
    ∃ found, Document.selectFrom sel.filter ds = .ok found ∧ delivered.Perm found := by
  obtain ⟨found, hfound, h⟩ := bind_eq_ok_iff.mp h
  obtain ⟨sorted, hsorted, h⟩ := bind_eq_ok_iff.mp h
  obtain rfl := Except.ok.inj h
  obtain ⟨sorted', hsorted', hperm⟩ := exists_order sel.keys found
  obtain rfl := Except.ok.inj (hsorted.symm.trans hsorted')
  refine ⟨found, hfound, ?_⟩
  rw [hoffset, hlimit]
  exact hperm

/-- What changes no document that could be selected changes no selection. -/
theorem Selection.map_apply_eq_self [RegexEngine] {sel : Selection} {ds : List Document}
    {f : Document → Document} (h : ∀ d ∈ ds, f d = d) :
    (sel.apply ds).map (List.map f) = sel.apply ds := by
  rcases hfound : sel.apply ds with e | found
  · rfl
  · have hself : found.map f = found.map id :=
      List.map_congr_left fun d hd => h d (mem_and_satisfies_of_apply hfound hd).1
    rw [Except.map, hself, List.map_id]

/-- A selection fails where its filter cannot be decided, and nowhere else. -/
theorem Selection.apply_eq_error_iff [RegexEngine] {sel : Selection} {ds : List Document}
    {e : StoreError} :
    sel.apply ds = .error e ↔ Document.selectFrom sel.filter ds = .error e := by
  rw [apply]
  rcases hfound : Document.selectFrom sel.filter ds with e' | found
  · rfl
  · obtain ⟨sorted, hsorted, -⟩ := exists_order sel.keys found
    refine ⟨fun h => ?_, nofun⟩
    change (order sel.keys found >>= fun ds => pure _) = _ at h
    rw [hsorted] at h
    cases h

/-! ### Running stages -/

/-- A document under a key of a row of its own. -/
def Document.under (key : String) (d : Document) : Document := [(key, .document d)]

namespace Pipeline

/-- A number of rows as a stage can write it. -/
def writtenCount (n : UInt64) : Nat := min n.toNat 0x7FFFFFFFFFFFFFFF

/-- The page of a list of rows, by numbers as stages can write them. -/
def cut (offset limit : Option UInt64) (rows : List Document) : List Document :=
  let rest := rows.drop ((offset.map writtenCount).getD 0)
  match limit with
  | none => rest
  | some n => rest.take (writtenCount n)

theorem cut_sublist (offset limit : Option UInt64) (rows : List Document) :
    (cut offset limit rows).Sublist rows := by
  rcases limit with _ | n
  · exact List.drop_sublist _ rows
  · exact (List.take_sublist _ _).trans (List.drop_sublist _ rows)

end Pipeline

namespace Stage

/-- The number of a stage is read as it was written. -/
private theorem countOf_rowCount (name : String) (n : UInt64) :
    countOf name (Pipeline.rowCount n) = .ok (Pipeline.writtenCount n) := by
  have hlt : Pipeline.writtenCount n < 2 ^ 63 := by
    unfold Pipeline.writtenCount
    omega
  have hint : (Int64.ofNat (Pipeline.writtenCount n)).toInt = Pipeline.writtenCount n :=
    Int64.toInt_ofNat_of_lt hlt
  change (if 0 ≤ (Int64.ofNat (Pipeline.writtenCount n)).toInt then
    Except.ok (Int64.ofNat (Pipeline.writtenCount n)).toInt.toNat else _) = _
  rw [hint, if_pos (Int.natCast_nonneg _), Int.toNat_natCast]

variable [RegexEngine] (collection : String → List Document)

/-- A pipeline runs its first stages, then the others on what they leave. -/
theorem runAll_append (first second : List Document) (ds : List Document) :
    runAll collection (first ++ second) ds =
      (do
        let ds ← runAll collection first ds
        runAll collection second ds) := by
  induction first generalizing ds with
  | nil => rfl
  | cons stage first ih =>
    rw [List.cons_append, runAll, runAll]
    rcases ofDocument stage with e | s
    · rfl
    rcases hrun : s.run collection ds with e | ds'
    · simp only [bind, Except.bind, hrun]
    · simp only [bind, Except.bind, hrun]
      exact ih ds'

/-- A pipeline of one stage is that stage. -/
theorem runAll_singleton {stage : Document} {s : Stage} (h : ofDocument stage = .ok s)
    (ds : List Document) : runAll collection [stage] ds = s.run collection ds := by
  rw [runAll, h]
  rcases hrun : s.run collection ds with e | ds'
  · simp only [bind, Except.bind, hrun]
  · simp only [bind, Except.bind, hrun, runAll]

/-- The first stage of a read puts each document under the name of its collection. -/
private theorem runAll_rootStage {schema : String} (h : isOperator schema = false)
    (ds : List Document) :
    runAll collection [Pipeline.rootStage schema] ds = .ok (ds.map (Document.under schema)) := by
  have hstage : ofDocument (Pipeline.rootStage schema) =
      .ok (.replaceRoot (.document [(schema, .string "$$ROOT")])) := rfl
  have hroot : ∀ d : Document,
      Value.evaluate d (.document [(schema, .string "$$ROOT")]) =
        .ok (.document (d.under schema)) := by
    intro d
    have htext : d.evaluateText "$$ROOT" = .ok (.document d) := rfl
    simp only [Value.evaluate, h, htext]
    rfl
  rw [runAll_singleton collection hstage, run]
  induction ds with
  | nil => rfl
  | cons d ds ih =>
    rw [replaceRoots, hroot, List.map_cons]
    change (replaceRoots _ ds >>= fun roots => _) = _
    rw [ih]
    rfl

/-- The stage that looks a join up writes what it finds for each row under the key of the join. -/
theorem runAll_lookupStage (l : Lookup) (rows : List Document) :
    runAll collection [Pipeline.lookupStage l] rows =
      .ok (rows.map fun row => row.write l.key
        (.array ((partners l.localPath l.foreignPath (collection l.schema) row).map
          .document))) := by
  have hstage : ofDocument (Pipeline.lookupStage l) =
      .ok (.lookup l.schema l.localPath l.foreignPath l.key) := rfl
  rw [runAll_singleton collection hstage, run]

/-- The stage that unwinds a join repeats rows for the items under its key. -/
theorem runAll_unwindStage (l : Lookup) (rows : List Document) :
    runAll collection [Pipeline.unwindStage l] rows = .ok (rows.flatMap (unwound l.key false)) := by
  have hlist : ("$" ++ l.key).toList = '$' :: l.key.toList := String.toList_append
  have hpath : barePath ("$" ++ l.key) = l.key := by
    rw [barePath, hlist]
    exact String.ofList_toList
  have hstage : ofDocument (Pipeline.unwindStage l) = .ok (.unwind l.key false) :=
    congrArg (fun path => Except.ok (Stage.unwind path false)) hpath
  rw [runAll_singleton collection hstage, run]

/-- The stages of a required join look it up, then unwind it. -/
theorem runAll_lookupStages_of_required {l : Lookup} (h : l.required = true)
    (rows : List Document) :
    runAll collection (Pipeline.lookupStages l) rows =
      (do
        let rows ← runAll collection [Pipeline.lookupStage l] rows
        runAll collection [Pipeline.unwindStage l] rows) := by
  rw [Pipeline.lookupStages, if_pos h, ← runAll_append]
  rfl

/-- Joins do not fail. -/
theorem exists_runAll_joins (ls : List Lookup) (ds : List Document) :
    ∃ rows, runAll collection (ls.flatMap Pipeline.lookupStages) ds = .ok rows := by
  induction ls generalizing ds with
  | nil => exact ⟨ds, rfl⟩
  | cons l ls ih =>
    obtain ⟨joined, hjoined⟩ : ∃ joined, runAll collection (Pipeline.lookupStages l) ds =
        .ok joined := by
      rcases hrequired : l.required with _ | _
      · rw [Pipeline.lookupStages, hrequired, if_neg Bool.false_ne_true, runAll_lookupStage]
        exact ⟨_, rfl⟩
      · rw [runAll_lookupStages_of_required collection hrequired, runAll_lookupStage]
        exact ⟨_, runAll_unwindStage collection l _⟩
    obtain ⟨rows, hrows⟩ := ih joined
    rw [List.flatMap_cons, runAll_append, hjoined]
    exact ⟨rows, hrows⟩

private theorem runAll_filterStages (filter : Document) (ds : List Document) :
    runAll collection (Pipeline.filterStages filter) ds = Document.selectFrom filter ds := by
  rcases filter with _ | ⟨e, filter⟩
  · -- What matches everything is left out of the pipeline.
    exact (Document.selectFrom_nil ds).symm
  · have hstage : ofDocument [("$match", .document (e :: filter))] = .ok (.select (e :: filter)) :=
      rfl
    exact runAll_singleton collection hstage ds

private theorem runAll_sortStages (keys : Option SortKeys) (ds : List Document) :
    runAll collection (Pipeline.sortStages keys) ds = Selection.order keys ds := by
  rcases keys with _ | keys
  · rfl
  · obtain ⟨ks, hks⟩ := keys.exists_ofDocument_toDocument
    have hstage : ofDocument [("$sort", .document keys.toDocument)] = .ok (.sort ks) := by
      change (SortKeys.ofDocument keys.toDocument >>= fun keys => pure (Stage.sort keys)) = _
      rw [hks]
      rfl
    rw [Pipeline.sortStages, runAll_singleton collection hstage, Selection.order, Document.sortBy,
      hks]
    rfl

private theorem runAll_skipStages (offset : Option UInt64) (ds : List Document) :
    runAll collection (Pipeline.skipStages offset) ds =
      .ok (ds.drop ((offset.map Pipeline.writtenCount).getD 0)) := by
  rcases offset with _ | n
  · rfl
  · have hstage : ofDocument [("$skip", Pipeline.rowCount n)] =
        .ok (.skip (Pipeline.writtenCount n)) := by
      change (countOf "$skip" (Pipeline.rowCount n) >>= fun n => pure (Stage.skip n)) = _
      rw [countOf_rowCount]
      rfl
    exact runAll_singleton collection hstage ds

private theorem runAll_limitStages (limit : Option UInt64) (ds : List Document) :
    runAll collection (Pipeline.limitStages limit) ds =
      .ok (match limit with
        | none => ds
        | some n => ds.take (Pipeline.writtenCount n)) := by
  rcases limit with _ | n
  · rfl
  · have hstage : ofDocument [("$limit", Pipeline.rowCount n)] =
        .ok (.limit (Pipeline.writtenCount n)) := by
      change (countOf "$limit" (Pipeline.rowCount n) >>= fun n => pure (Stage.limit n)) = _
      rw [countOf_rowCount]
      rfl
    exact runAll_singleton collection hstage ds

private theorem runAll_projectStage (listed : Document) (ds : List Document) :
    runAll collection [Pipeline.projectStage listed] ds =
      .ok (ds.map (Document.project listed)) := by
  have hstage : ofDocument (Pipeline.projectStage listed) = .ok (.project listed) := rfl
  exact runAll_singleton collection hstage ds

/-- A projection at the end of a pipeline projects what the stages before it deliver. -/
theorem runAll_projectLast (stages : List Document) (listed : Document)
    (ds : List Document) :
    runAll collection (stages ++ [Pipeline.projectStage listed]) ds =
      (runAll collection stages ds).map (List.map (Document.project listed)) := by
  rw [runAll_append]
  rcases runAll collection stages ds with e | found
  · rfl
  · exact runAll_projectStage collection listed found

/-- What a read projects of its rows does not change how many there are. -/
theorem exists_runAll_stagesOf {schema : String} {ls : List Lookup} {sel : Selection}
    {listed : Document} (listed' : Document) {ds rows : List Document}
    (h : runAll collection (Pipeline.stagesOf schema ls sel listed) ds = .ok rows) :
    ∃ rows', runAll collection (Pipeline.stagesOf schema ls sel listed') ds = .ok rows' ∧
      rows'.length = rows.length := by
  rw [Pipeline.stagesOf_eq, runAll_projectLast] at h ⊢
  rcases hfound : runAll collection (Pipeline.unpagedStages schema ls sel ++
    (Pipeline.skipStages sel.offset ++ Pipeline.limitStages sel.limit)) ds with e | found <;>
      rw [hfound] at h
  · cases h
  · obtain rfl := Except.ok.inj h
    exact ⟨_, rfl, by rw [List.length_map, List.length_map]⟩

/-- The stages of a page cut to it where there are no more rows than numbers that can be written. -/
theorem runAll_pageStages (offset limit : Option UInt64) {ds : List Document}
    (hlength : ds.length < 2 ^ 63) :
    runAll collection (Pipeline.skipStages offset ++ Pipeline.limitStages limit) ds =
      .ok (Collection.page offset limit ds) := by
  -- A number that is written smaller than it is still reaches beyond the last row.
  have hwritten : ∀ n : UInt64, Pipeline.writtenCount n = n.toNat ∨
      ds.length ≤ Pipeline.writtenCount n ∧ ds.length ≤ n.toNat := by
    intro n
    unfold Pipeline.writtenCount
    omega
  have hdrop : ds.drop ((offset.map Pipeline.writtenCount).getD 0) =
      ds.drop (offset.getD 0).toNat := by
    rcases offset with _ | n
    · rfl
    · change ds.drop (Pipeline.writtenCount n) = ds.drop n.toNat
      rcases hwritten n with h | ⟨hle, hle'⟩
      · rw [h]
      · rw [List.drop_eq_nil_of_le hle, List.drop_eq_nil_of_le hle']
  rw [runAll_append, runAll_skipStages, hdrop]
  change runAll collection (Pipeline.limitStages limit) (ds.drop (offset.getD 0).toNat) = _
  rw [runAll_limitStages]
  rcases limit with _ | n
  · rfl
  · have hlength' : (ds.drop (offset.getD 0).toNat).length ≤ ds.length := by
      rw [List.length_drop]
      exact Nat.sub_le _ _
    change Except.ok ((ds.drop (offset.getD 0).toNat).take (Pipeline.writtenCount n)) =
      Except.ok ((ds.drop (offset.getD 0).toNat).take n.toNat)
    rcases hwritten n with h | ⟨hle, hle'⟩
    · rw [h]
    · rw [List.take_of_length_le (Nat.le_trans hlength' hle),
        List.take_of_length_le (Nat.le_trans hlength' hle')]

/-- **The stages of a selection** apply it, where there are no more rows than numbers that can be
written. -/
theorem runAll_selectionStages (sel : Selection) {ds : List Document}
    (hlength : ds.length < 2 ^ 63) :
    runAll collection (Pipeline.selectionStages sel) ds = sel.apply ds := by
  rw [Pipeline.selectionStages, List.append_assoc, List.append_assoc, runAll_append,
    runAll_filterStages, Selection.apply]
  rcases hfound : Document.selectFrom sel.filter ds with e | found
  · rfl
  obtain ⟨sorted, hsorted, hperm⟩ := Selection.exists_order sel.keys found
  have hle : sorted.length ≤ ds.length :=
    Nat.le_trans (Nat.le_of_eq hperm.length_eq) (Document.length_le_of_selectFrom hfound)
  change runAll collection (Pipeline.sortStages sel.keys ++ _) found =
    (Selection.order sel.keys found >>= fun sorted => pure (Collection.page _ _ sorted))
  rw [runAll_append, runAll_sortStages, hsorted]
  exact runAll_pageStages collection _ _ (Nat.lt_of_le_of_lt hle hlength)

/-- The stages of a selection select, order and cut rows, however many these are. -/
theorem runAll_selectionStages_eq (sel : Selection) (ds : List Document) :
    runAll collection (Pipeline.selectionStages sel) ds =
      (do
        let selected ← Document.selectFrom sel.filter ds
        let sorted ← Selection.order sel.keys selected
        pure (Pipeline.cut sel.offset sel.limit sorted)) := by
  rw [Pipeline.selectionStages, List.append_assoc, List.append_assoc, runAll_append,
    runAll_filterStages]
  rcases Document.selectFrom sel.filter ds with e | selected
  · rfl
  change runAll collection (Pipeline.sortStages sel.keys ++ _) selected =
    (Selection.order sel.keys selected >>= fun sorted => pure (Pipeline.cut _ _ sorted))
  rw [runAll_append, runAll_sortStages]
  rcases Selection.order sel.keys selected with e | sorted
  · rfl
  change runAll collection (Pipeline.skipStages sel.offset ++ _) sorted = _
  rw [runAll_append, runAll_skipStages]
  change runAll collection (Pipeline.limitStages sel.limit) _ = _
  rw [runAll_limitStages]
  rfl

/-- The stages of a selection fail where its filter cannot be decided, and nowhere else. -/
theorem runAll_selectionStages_eq_error_iff {sel : Selection} {ds : List Document}
    {e : StoreError} :
    runAll collection (Pipeline.selectionStages sel) ds = .error e ↔
      Document.selectFrom sel.filter ds = .error e := by
  rw [runAll_selectionStages_eq]
  rcases Document.selectFrom sel.filter ds with e' | selected
  · rfl
  obtain ⟨sorted, hsorted, -⟩ := Selection.exists_order sel.keys selected
  refine ⟨fun h => ?_, nofun⟩
  change (Selection.order sel.keys selected >>= fun sorted => pure _) = _ at h
  rw [hsorted] at h
  cases h

/-- **The stages of a read** nest the documents, run the joins and then select and project the rows
that these leave. -/
theorem runAll_stagesOf {schema : String} (h : isOperator schema = false)
    {ls : List Lookup} (sel : Selection) (listed : Document) {ds rows : List Document}
    (hjoins : runAll collection (ls.flatMap Pipeline.lookupStages)
      (ds.map (Document.under schema)) = .ok rows) :
    runAll collection (Pipeline.stagesOf schema ls sel listed) ds =
      (runAll collection (Pipeline.selectionStages sel) rows).map
        (List.map (Document.project listed)) := by
  rw [Pipeline.stagesOf, ← List.singleton_append, runAll_append, runAll_rootStage collection h]
  change runAll collection (_ ++ _) (ds.map (Document.under schema)) = _
  rw [runAll_append, hjoins]
  exact runAll_projectLast collection _ listed rows

end Stage

/-! ### Projections that keep everything -/

namespace Document

/-- The projection that lists keys once each. -/
theorem listing_eq {keys : List String} (h : keys.Nodup) :
    Pipeline.listing keys = keys.map fun key => (key, Value.int32 1) := by
  have hfold : ∀ (d : Document), (∀ key ∈ keys, key ∉ d.keys) →
      keys.foldl (fun d key => d.put key (.int32 1)) d =
        d ++ keys.map fun key => (key, Value.int32 1) := by
    induction keys with
    | nil => exact fun d _ => (List.append_nil d).symm
    | cons key keys ih =>
      intro d hd
      obtain ⟨hkey, hkeys⟩ := List.nodup_cons.mp h
      have hnew : ∀ other ∈ keys, other ∉ Document.keys (d ++ [(key, .int32 1)]) := by
        intro other hother hmem
        rw [Document.keys, List.map_append, List.mem_append] at hmem
        rcases hmem with hmem | hmem
        · exact hd other (List.mem_cons_of_mem _ hother) hmem
        · have heq : other = key := List.mem_singleton.mp hmem
          exact hkey (heq ▸ hother)
      rw [List.foldl_cons, put_of_not_mem (hd key List.mem_cons_self), ih hkeys _ hnew,
        List.append_assoc]
      rfl
  exact hfold [] fun _ _ => List.not_mem_nil

/-- Copying the entries of a document one after another copies the document. -/
private theorem foldl_copy {d : Document} (hkeys : d.keys.Nodup)
    (hdots : ∀ key ∈ d.keys, Path.IsKey key) :
    d.keys.foldl (fun target key => copy key target d) [] = d := by
  have hfold : ∀ copied rest : Document, d = copied ++ rest →
      (keys rest).foldl (fun target key => copy key target d) copied = d := by
    intro copied rest h
    induction rest generalizing copied with
    | nil => rw [h, List.append_nil]; rfl
    | cons e rest ih =>
      obtain ⟨key, v⟩ := e
      have hsplit : d.keys = keys copied ++ key :: keys rest := by
        rw [h, keys, List.map_append]
        rfl
      have hnew : key ∉ keys copied := by
        rw [hsplit] at hkeys
        intro hmem
        exact (List.nodup_append.mp hkeys).2.2 key hmem key List.mem_cons_self rfl
      have hkey : Path.IsKey key := hdots key (by rw [hsplit]; simp)
      have hread : d.value? key = some v := by
        rw [h]
        exact value?_append_cons hnew v rest
      have hcopy : copy key copied d = copied ++ [(key, v)] := by
        rw [copy, Path.segments_key hkey, copyAt, hread]
        exact put_of_not_mem hnew v
      change (keys rest).foldl _ (copy key copied d) = d
      rw [hcopy]
      exact ih _ (by rw [h, List.append_assoc]; rfl)
  exact hfold [] d rfl

/-- **A projection that lists the keys of a document** keeps all of it. -/
theorem project_listing {d : Document} {keys : List String} (hd : d.keys = keys)
    (hnodup : keys.Nodup) (hdots : ∀ key ∈ keys, Path.IsKey key) (hid : idKey ∉ keys) :
    Document.project (Pipeline.listing keys) d = d := by
  subst hd
  have hlisting := listing_eq hnodup
  have hlisted : listedPaths (Pipeline.listing d.keys) = d.keys := by
    have hne : ∀ key ∈ d.keys, key ≠ idKey := fun key hkey heq => hid (heq ▸ hkey)
    rw [hlisting, listedPaths, List.filter_eq_self.mpr, List.map_map]
    · exact List.map_id' d.keys
    · intro e he
      obtain ⟨key, hkey, rfl⟩ := List.mem_map.mp he
      simp [hne key hkey, Value.countsAsTrue, Atom.countsAsTrue]
  have hidentity : d.identityOf = [] := by
    rw [identityOf, value?_eq_none_iff.mpr hid]
  have hkept : ∀ identity, keepOnly identity d.keys d = d := by
    intro identity
    have hstart : (if identity then d.identityOf else []) = [] := by rw [hidentity, ite_self]
    rw [keepOnly, hstart, foldl_copy hnodup hdots]
  rw [project, hlisted]
  -- With no key at all nothing is listed, and nothing is dropped either.
  rcases hd : d.keys with _ | ⟨key, keys⟩
  · rfl
  · change keepOnly _ (key :: keys) d = d
    rw [← hd]
    exact hkept _

end Document

end DocQuery
