import DocQuery.Proofs.FilteredRows
import DocQuery.Proofs.SortedDocuments
import DocQuery.Runtime.Regex.Engine

/-!
# Sorted reads

A sorted read sorts what the store sees: documents, or rows of a join before a caller reads them.
`Row.InOrder` says what the caller expects, that one row reads a value at the field that is not
greater than what the next reads there. The main theorem, `Database.execute_sorted`, says where this
follows from the sort.

It follows where the store and the caller see the same, which is so for the base collection and for
a join that drops rows without a match: it leaves one document under its key. A join that keeps rows
without a match leaves a list there, and the store reads a list through it, while the caller reads
its first document. All lists are level, so such a sort moves nothing.

It also takes an order that orders. A double that is no number is level with every number, so that
rows on both sides of it may stay as they are (`Database.execute_byPetName`); therefore no row of
the read may have a double or a symbol at the field, not even one that the page leaves out.
-/

namespace DocQuery

/-! ### Sorts of a selection -/

namespace Query

variable {mode : Addressing} {q : Query} {sel : Selection}

/-- The query without its page. -/
def whole (q : Query) : Query := { q with offsets := [], limits := [] }

/-- The query without its sorts. -/
def unsorted (q : Query) : Query := { q with sorts := [] }

/-- The query without its page selects the same, and all of it. -/
private theorem selection_whole (h : q.selection mode = .ok sel) :
    q.whole.selection mode = .ok { sel with offset := none, limit := none } := by
  obtain ⟨filter, hfilter, h⟩ := bind_eq_ok_iff.mp h
  obtain ⟨keys, hkeys, h⟩ := bind_eq_ok_iff.mp h
  obtain ⟨offset, -, h⟩ := bind_eq_ok_iff.mp h
  obtain ⟨limit, -, h⟩ := bind_eq_ok_iff.mp h
  obtain rfl := Except.ok.inj h
  change (Filter.compileList mode q.filters >>= fun filter => SortBy.compile mode q.sorts >>= _) = _
  rw [hfilter]
  change (SortBy.compile mode q.sorts >>= _) = _
  rw [hkeys]
  rfl

/-- The query without its sorts selects the same, in no order. -/
private theorem selection_unsorted (h : q.selection mode = .ok sel) :
    q.unsorted.selection mode = .ok { sel with keys := none } := by
  obtain ⟨filter, hfilter, h⟩ := bind_eq_ok_iff.mp h
  obtain ⟨keys, -, h⟩ := bind_eq_ok_iff.mp h
  obtain ⟨offset, hoffset, h⟩ := bind_eq_ok_iff.mp h
  obtain ⟨limit, hlimit, h⟩ := bind_eq_ok_iff.mp h
  obtain rfl := Except.ok.inj h
  change (Filter.compileList mode q.filters >>= fun filter =>
    Limit.first q.offsets >>= fun offset => Limit.first q.limits >>= _) = _
  rw [hfilter, hoffset, hlimit]
  rfl

/-- A query sorted by a field has its path as the only sort key. -/
private theorem keys_of_selection (h : q.selection mode = .ok sel) {f : Field}
    (hsorts : q.sorts = [.ascending f]) :
    ∃ path, f.resolve mode = .ok path ∧ sel.keys = some [(path, .ascending)] := by
  obtain ⟨filter, -, h⟩ := bind_eq_ok_iff.mp h
  obtain ⟨keys, hkeys, h⟩ := bind_eq_ok_iff.mp h
  obtain ⟨offset, -, h⟩ := bind_eq_ok_iff.mp h
  obtain ⟨limit, -, h⟩ := bind_eq_ok_iff.mp h
  obtain rfl := Except.ok.inj h
  rw [hsorts] at hkeys
  obtain ⟨ks, hks, hkeys⟩ := bind_eq_ok_iff.mp hkeys
  obtain ⟨path, hpath, hks⟩ := bind_eq_ok_iff.mp hks
  obtain rfl := Except.ok.inj hks
  exact ⟨path, hpath, (Except.ok.inj hkeys).symm⟩

end Query

/-- Ordering by one path sorts by it. -/
private theorem Selection.order_ascending (path : String) (ds : List Document) :
    order (some [(path, .ascending)]) ds = .ok (SortKeys.sort [(path, .ascending)] ds) :=
  rfl

/-- Documents that are level at one path stay as they are. -/
private theorem SortKeys.sort_of_level {path : String} {ds : List Document}
    (h : ∀ d ∈ ds, ∀ e ∈ ds, Value.order (d.read? path) (e.read? path) = .eq) :
    sort [(path, .ascending)] ds = ds := by
  refine StableSort.sort_eq_self fun d hd e he => ?_
  have hlevel : compare [(path, .ascending)] d e = .eq :=
    compare_eq_eq_iff.mpr (level_cons.mpr ⟨h d hd e he, nofun⟩)
  rw [hlevel]
  rfl

/-! ### Rows in order -/

namespace Row

/-- One row reads a value at a field that is not greater than what the other reads there. -/
def InOrder (f : Field) (row row' : Row) : Prop :=
  ∃ v w, row.value f = .ok v ∧ row'.value f = .ok w ∧ Value.order (some v) (some w) ≠ .gt

/-- A row that reads a greater value than the other is not in order with it. -/
private theorem not_inOrder {f : Field} {row row' : Row} {v w : Value} (hv : row.value f = .ok v)
    (hw : row'.value f = .ok w) (hgt : Value.order (some v) (some w) = .gt) :
    ¬ InOrder f row row' := by
  rintro ⟨v', w', hv', hw', hne⟩
  obtain rfl := Except.ok.inj (hv.symm.trans hv')
  obtain rfl := Except.ok.inj (hw.symm.trans hw')
  exact hne hgt

end Row

namespace Database

variable {db : Database} {s : Server} {cat : Catalog} {q : Query} {ls : List Lookup}
  {rows : List Row} {f : Field} {path : String} {selected : List Document}
  {makes : Document → Row}

/-- How a sorted read comes to its rows: it sorts what it selects by a path, makes a row of each,
and keeps those of its page. -/
structure Sorts [RegexEngine] (db : Database) (s : Server) (q : Query) (rows : List Row)
    (path : String) (selected : List Document) (makes : Document → Row) : Prop where
  /-- The page is some of the rows, as they stand. -/
  sublist : rows.Sublist ((SortKeys.sort [(path, .ascending)] selected).map makes)
  /-- The read without its page delivers all of them. -/
  whole : (db.execute q.whole s).1 =
    ⟨(SortKeys.sort [(path, .ascending)] selected).map makes, .ok ()⟩
  /-- The read without its sort delivers the same page if the sort moves nothing. -/
  unsorted : SortKeys.sort [(path, .ascending)] selected = selected →
    (db.execute q.unsorted s).1 = ⟨rows, .ok ()⟩

/-- Rows are in order at a field where they read what the documents hold at the path that these are
sorted by. -/
private theorem Sorts.pairwise_inOrder [RegexEngine] (h : Sorts db s q rows path selected makes)
    (hreads : ∀ d ∈ selected, (makes d).Reads f (d.read? path))
    (hplaced : ∀ row ∈ (db.execute q.whole s).1.rows, ∀ v, row.value f = .ok v →
      Value.IsPlaced (some v)) :
    rows.Pairwise (Row.InOrder f) := by
  have hperm : (SortKeys.sort [(path, .ascending)] selected).Perm selected :=
    StableSort.sort_perm _ selected
  have hplaces : ∀ d ∈ selected, SortKeys.Places [(path, .ascending)] d := by
    intro d hd key hkey
    obtain rfl := List.mem_singleton.mp hkey
    have hrow : makes d ∈ (db.execute q.whole s).1.rows := by
      rw [h.whole]
      exact List.mem_map_of_mem (hperm.mem_iff.mpr hd)
    exact Value.isPlaced_getD_null.mp (hplaced _ hrow _ (hreads d hd).value_eq)
  refine List.Pairwise.sublist h.sublist
    (List.pairwise_map.mpr ((SortKeys.pairwise_sort hplaces).imp_of_mem ?_))
  intro d e hd he hne
  refine ⟨_, _, (hreads d (hperm.subset hd)).value_eq, (hreads e (hperm.subset he)).value_eq, ?_⟩
  rw [Value.order_getD_null]
  intro hgt
  refine hne ?_
  rw [SortKeys.compare, hgt]
  rfl

/-- A plain read sorted by a field sorts documents by its path. -/
private theorem exists_sorts_plain [RegexEngine] (hsound : db.connection.faults = none)
    (hcat : s.store.catalog? db.connection.handle = some cat) (hread : q.action = .read)
    (hjoins : q.joins = []) (hexecute : (db.execute q s).1 = ⟨rows, .ok ()⟩)
    (hsorts : q.sorts = [.ascending f]) :
    ∃ path selected, f.resolve .plain = .ok path ∧
      Sorts db s q rows path selected (.ofDocument q.schema) := by
  obtain ⟨sel, ds, hsel, hds, rfl⟩ := exists_of_plainRead hsound hcat hread hjoins hexecute
  obtain ⟨path, hpath, hkey⟩ := Query.keys_of_selection hsel hsorts
  obtain ⟨selected, hselected, hds⟩ := bind_eq_ok_iff.mp hds
  rw [hkey, Selection.order_ascending] at hds
  obtain rfl := Except.ok.inj hds
  refine ⟨path, selected, hpath, (Collection.page_sublist _ _ _).map _, ?_, fun hlevel => ?_⟩
  · rw [execute_plainRead (q := q.whole) hsound hcat hread hjoins, Query.selection_whole hsel]
    change Outcome.ofRead _
      (Document.selectFrom sel.filter (cat.collection q.schema).documents >>= fun selected =>
        Selection.order sel.keys selected >>= fun sorted => pure _) = _
    rw [hselected, hkey]
    rfl
  · rw [execute_plainRead (q := q.unsorted) hsound hcat hread hjoins, Query.selection_unsorted hsel]
    change Outcome.ofRead _
      (Document.selectFrom sel.filter (cat.collection q.schema).documents >>= fun selected =>
        pure _) = _
    rw [hselected, hlevel]
    rfl

/-- A joined read sorted by a field sorts rows of the join by its path under its key. -/
private theorem exists_sorts_joined [RegexEngine] (hsound : db.connection.faults = none)
    (hcat : s.store.catalog? db.connection.handle = some cat) (hread : q.action = .read)
    (hfields : q.fields = []) (hjoins : q.joins ≠ []) (hls : Join.lookups q.joins = .ok ls)
    (hnodup : (q.schema :: ls.map (·.key)).Nodup)
    (hkeys : ∀ key ∈ q.schema :: ls.map (·.key), Path.IsKey key)
    (hoperator : isOperator q.schema = false) (hexecute : (db.execute q s).1 = ⟨rows, .ok ()⟩)
    (hsorts : q.sorts = [.ascending f]) :
    ∃ schema path selected, f.schema? = some schema ∧ f.plainPath = .ok path ∧
      (∀ d ∈ selected, d ∈ joinedRows (fun name => (cat.collection name).documents) q.schema ls) ∧
      Sorts db s q rows (Path.through schema path) selected fun d => .ofJoined (.ofLookups ls)
        (Document.project (Pipeline.listing (q.schema :: ls.map (·.key))) d) := by
  obtain ⟨sel, listed, found, hsel, hlisted, hfound, rfl⟩ :=
    exists_of_joinedRead hsound hcat hread hjoins hls hnodup hkeys hoperator hexecute
  obtain ⟨qualified, hqualified, hkey⟩ := Query.keys_of_selection hsel hsorts
  obtain ⟨schema, path, hschema, hpath, rfl⟩ := Field.exists_of_qualifiedPath hqualified
  rw [Stage.runAll_selectionStages_eq] at hfound
  obtain ⟨selected, hselected, hfound⟩ := bind_eq_ok_iff.mp hfound
  rw [hkey, Selection.order_ascending] at hfound
  obtain rfl := Except.ok.inj hfound
  have hprojection : Pipeline.projection q ls =
      .ok (Pipeline.listing (q.schema :: ls.map (·.key))) := by
    rw [Pipeline.projection, hfields]
  obtain rfl := Except.ok.inj (hprojection.symm.trans hlisted)
  refine ⟨schema, path, selected, hschema, hpath,
    fun d hd => ((Document.mem_selectFrom_iff hselected).mp hd).1,
    (Pipeline.cut_sublist _ _ _).map _, ?_, fun hlevel => ?_⟩
  · rw [execute_joinedRead (q := q.whole) hsound hcat hread hjoins hls hnodup hkeys hoperator
      (Query.selection_whole hsel) hlisted, Stage.runAll_selectionStages_eq]
    change Outcome.ofRead _ (Document.selectFrom sel.filter (joinedRows _ q.schema ls) >>=
      fun selected => Selection.order sel.keys selected >>= fun sorted => pure _) = _
    rw [hselected, hkey]
    rfl
  · rw [execute_joinedRead (q := q.unsorted) hsound hcat hread hjoins hls hnodup hkeys hoperator
      (Query.selection_unsorted hsel) hlisted, Stage.runAll_selectionStages_eq]
    change Outcome.ofRead _ (Document.selectFrom sel.filter (joinedRows _ q.schema ls) >>=
      fun selected => pure _) = _
    rw [hselected, hlevel]
    rfl

/-- **Sorted reads deliver rows in order.** Take a read without projected fields that succeeds,
plain or with joins whose keys are told apart, sorted by a field of the base collection or of a
join. If the join, where it is one, drops rows without a match, and no row of the whole read reads a
double or a symbol at the field, then the rows are in order as they are read. If the join keeps rows
without a match, they stand as they do without the sort. -/
theorem execute_sorted [RegexEngine] (hsound : db.connection.faults = none)
    (hcat : s.store.catalog? db.connection.handle = some cat) (hread : q.action = .read)
    (hfields : q.fields = []) (hls : Join.lookups q.joins = .ok ls)
    (hnodup : (q.schema :: ls.map (·.key)).Nodup)
    (hkeys : ∀ key ∈ q.schema :: ls.map (·.key), Path.IsKey key)
    (hoperators : ∀ key ∈ q.schema :: ls.map (·.key), isOperator key = false)
    (hexecute : (db.execute q s).1 = ⟨rows, .ok ()⟩) {schema : String}
    (hsorts : q.sorts = [.ascending f]) (hschema : f.schema? = some schema)
    (hmem : schema ∈ q.schema :: ls.map (·.key)) :
    ((∀ l ∈ ls, l.key = schema → l.required = true) →
      (∀ row ∈ (db.execute q.whole s).1.rows, ∀ v,
        row.value f = .ok v → Value.IsPlaced (some v)) →
      rows.Pairwise (Row.InOrder f)) ∧
    ((∃ l ∈ ls, l.key = schema ∧ l.required = false) →
      (db.execute q.unsorted s).1 = ⟨rows, .ok ()⟩) := by
  by_cases hjoins : q.joins = []
  · rw [hjoins] at hls
    obtain rfl := Except.ok.inj hls
    obtain rfl := List.mem_singleton.mp hmem
    obtain ⟨path, selected, hpath, hsorted⟩ :=
      exists_sorts_plain hsound hcat hread hjoins hexecute hsorts
    exact ⟨fun _ => hsorted.pairwise_inOrder fun d _ => Row.reads_ofDocument hschema hpath d,
      fun ⟨l, hl, _⟩ => absurd hl List.not_mem_nil⟩
  · obtain ⟨owner, path, selected, howner, hpath, hjoined, hsorted⟩ :=
      exists_sorts_joined hsound hcat hread hfields hjoins hls hnodup hkeys
        (hoperators _ List.mem_cons_self) hexecute hsorts
    obtain rfl := Option.some.inj (hschema.symm.trans howner)
    have hattached := fun d hd => exists_attached _ hnodup (hjoined d hd) hmem
    constructor
    · intro hinner
      refine hsorted.pairwise_inOrder fun d hd => ?_
      -- Under the key the row holds a document, in which the sort and the reader see the same.
      obtain ⟨name, required, held, hheld, hone, hleft⟩ := hattached d hd
      cases hone with
      | @one inner _ =>
        have hkept := Join.value?_project_listing hjoins hls hnodup hkeys hmem hheld
        rw [Path.through, Document.read?_qualified (hkeys schema hmem) hheld,
          ← Row.valueUnder?_document hkept]
        exact Row.reads_ofJoined hschema hpath ls _
      | all _ =>
        obtain ⟨l, hl, rfl, hrequired⟩ := hleft.mp rfl
        rw [hinner l hl rfl] at hrequired
        cases hrequired
    · rintro ⟨l, hl, rfl, hrequired⟩
      -- Under the key every row holds a list, and through a list the sort sees a list.
      have hlist : ∀ d ∈ selected, ∃ items,
          d.read? (Path.through l.key path) = some (.array items) := by
        intro d hd
        obtain ⟨name, required, held, hheld, hall, hleft⟩ := hattached d hd
        obtain rfl := hleft.mpr ⟨l, hl, rfl, hrequired⟩
        cases hall with
        | all _ => exact ⟨_, Document.read?_through_list (hkeys _ hmem) hheld path⟩
      refine hsorted.unsorted (SortKeys.sort_of_level fun d hd e he => ?_)
      obtain ⟨items, hd⟩ := hlist d hd
      obtain ⟨items', he⟩ := hlist e he
      rw [hd, he]
      rfl

/-- A read of people with their pets, joined in a way, by the names of the pets. -/
def byPetName (kind : JoinKind) : Query where
  schema := "people"
  action := .read
  joins := [.equality "pets" none kind (.single (.name "owner") "pets") (.identity "people")]
  sorts := [.ascending nameOfPet]

/-- Two people with one pet each, the names of the pets not in order. -/
def onePetEach : Server :=
  ⟨⟨⟨[("people", ⟨[[(idKey, .int32 1)], [(idKey, .int32 2)]], []⟩),
    ("pets", ⟨[[(idKey, .int32 1), ("owner", .int32 1), ("name", .string "tom")],
      [(idKey, .int32 2), ("owner", .int32 2), ("name", .string "rex")]], []⟩)]⟩, [], []⟩, 0⟩

attribute [local instance] Runtime.engine

/-- By names of pets that are required, the second person comes first; by those of pets that are
not, both stand as they do without the sort. -/
theorem execute_sorted_byPetName :
    let db := ofConnection .sound
    ∃ rows rows', (db.execute (byPetName .inner) onePetEach).1 = ⟨rows, .ok ()⟩ ∧
      rows.map (·.value nameOfPet) = [.ok (.string "rex"), .ok (.string "tom")] ∧
      rows.Pairwise (Row.InOrder nameOfPet) ∧
      (db.execute (byPetName .left) onePetEach).1 = ⟨rows', .ok ()⟩ ∧
      (db.execute (byPetName .left).unsorted onePetEach).1 = ⟨rows', .ok ()⟩ := by
  intro db
  have hsound : db.connection.faults = none := rfl
  have hcat : onePetEach.store.catalog? db.connection.handle = some onePetEach.store.committed :=
    rfl
  have hinner : Join.lookups (byPetName .inner).joins =
      .ok [⟨"pets", "pets", "people._id", "owner", true⟩] := rfl
  have hleft : Join.lookups (byPetName .left).joins =
      .ok [⟨"pets", "pets", "people._id", "owner", false⟩] := rfl
  have hexecute := Outcome.eq_of_ending (o := (db.execute (byPetName .inner) onePetEach).1)
    (by decide +kernel)
  have hexecute' := Outcome.eq_of_ending (o := (db.execute (byPetName .left) onePetEach).1)
    (by decide +kernel)
  have hvalues : (db.execute (byPetName .inner) onePetEach).1.rows.map (·.value nameOfPet) =
      [.ok (.string "rex"), .ok (.string "tom")] := by decide +kernel
  have hplaced : ∀ row ∈ (db.execute (byPetName .inner).whole onePetEach).1.rows, ∀ v,
      row.value nameOfPet = .ok v → Value.IsPlaced (some v) := by
    intro row hrow v hv
    have hmem : Except.ok v ∈
        (db.execute (byPetName .inner) onePetEach).1.rows.map (·.value nameOfPet) :=
      List.mem_map.mpr ⟨row, hrow, hv⟩
    rw [hvalues] at hmem
    rcases List.mem_pair.mp hmem with h | h <;> cases h <;> trivial
  have hsorted := execute_sorted (f := nameOfPet) hsound hcat rfl rfl hinner (by decide) (by decide)
    (by decide) hexecute rfl rfl (by decide)
  have hkept := execute_sorted (f := nameOfPet) hsound hcat rfl rfl hleft (by decide) (by decide)
    (by decide) hexecute' rfl rfl (by decide)
  exact ⟨_, _, hexecute, hvalues, hsorted.1 (by decide) hplaced, hexecute', hkept.2 (by decide)⟩

/-- The days of notes, of which the second is no number. -/
def oneNoDay : Server :=
  let notes : List Document := [[(idKey, .int32 1), ("day", .int32 3)],
    [(idKey, .int32 2), ("day", .double ⟨0x7FF8000000000000⟩)],
    [(idKey, .int32 3), ("day", .int32 1)]]
  ⟨⟨⟨[("notes", ⟨notes, []⟩)]⟩, [], []⟩, 0⟩

/-- **Not every sorted read delivers rows in order.** Rows of a join that keeps those without a
match are not sorted by what is read of them, and next to a day that is no number other days are
not. -/
theorem execute_byPetName :
    let db := ofConnection .sound
    let day : Field := .single (.name "day") "notes"
    (∃ row row', (db.execute (byPetName .left) onePetEach).1 = ⟨[row, row'], .ok ()⟩ ∧
      row.value nameOfPet = .ok (.string "tom") ∧ row'.value nameOfPet = .ok (.string "rex") ∧
      ¬ Row.InOrder nameOfPet row row') ∧
    ∃ row middle row',
      (db.execute ((Query.read "notes").withSort (.ascending day)) oneNoDay).1 =
        ⟨[row, middle, row'], .ok ()⟩ ∧
      row.value day = .ok (.int32 3) ∧ row'.value day = .ok (.int32 1) ∧
      ¬ Row.InOrder day row row' := by
  constructor
  · have hexecute := Outcome.eq_of_ending
      (o := ((ofConnection .sound).execute (byPetName .left) onePetEach).1) (by decide +kernel)
    have hvalues : ((ofConnection .sound).execute (byPetName .left) onePetEach).1.rows.map
        (·.value nameOfPet) = [.ok (.string "tom"), .ok (.string "rex")] := by decide +kernel
    obtain ⟨row, rest, hrows, hrow, hrest⟩ := List.map_eq_cons_iff.mp hvalues
    obtain ⟨row', rest, rfl, hrow', hrest⟩ := List.map_eq_cons_iff.mp hrest
    obtain rfl := List.map_eq_nil_iff.mp hrest
    rw [hrows] at hexecute
    exact ⟨row, row', hexecute, hrow, hrow', Row.not_inOrder hrow hrow' (by decide)⟩
  · have hexecute := Outcome.eq_of_ending (o := ((ofConnection .sound).execute
      ((Query.read "notes").withSort (.ascending (.single (.name "day") "notes"))) oneNoDay).1)
      (by decide +kernel)
    have hvalues : ((ofConnection .sound).execute
        ((Query.read "notes").withSort (.ascending (.single (.name "day") "notes")))
        oneNoDay).1.rows.map (·.value (.single (.name "day") "notes")) =
          [.ok (.int32 3), .ok (.double ⟨0x7FF8000000000000⟩), .ok (.int32 1)] := by decide +kernel
    obtain ⟨row, rest, hrows, hrow, hrest⟩ := List.map_eq_cons_iff.mp hvalues
    obtain ⟨middle, rest, rfl, -, hrest⟩ := List.map_eq_cons_iff.mp hrest
    obtain ⟨row', rest, rfl, hrow', hrest⟩ := List.map_eq_cons_iff.mp hrest
    obtain rfl := List.map_eq_nil_iff.mp hrest
    rw [hrows] at hexecute
    exact ⟨row, middle, row', hexecute, hrow, hrow', Row.not_inOrder hrow hrow' (by decide)⟩

end Database

end DocQuery
