import DocQuery.Proofs.FilterMeaning
import DocQuery.Proofs.JoinFrames
import DocQuery.Runtime.Regex.Engine

/-!
# Joined reads compute the join

The reference for a joined read is the join by nested loops. `Lookup.agrees` says when a foreign
document belongs to a row, `Lookup.extend` what a join makes of one row, and `joinedRows` what the
joins of a query make of the documents of its base collection. It writes no paths and unwinds no
arrays: what a join adds is the last entry of a row.

The main theorem, `Database.execute_joined`, says that executing a joined read delivers these rows,
selected, ordered and cut as the query says. Its proof is an induction over the joins
(`Stage.runAll_joins`): as long as each join has a key of its own (`Lookup.Separate`), the
stages of a join add one entry to every row, and the projection at the end of the pipeline lists
the keys that the rows have.
-/

namespace DocQuery

/-! ### The reference -/

namespace Lookup

/-- Whether a foreign document belongs to a row: its value at the foreign path is equal to the value
of the row at the local path, or to one of its elements if that is an array. Where nothing is, null
is. -/
def agrees (l : Lookup) (row foreign : Document) : Bool :=
  let sought : List Value :=
    match row.read? l.localPath with
    | none => [.null]
    | some (.array items) => items
    | some v => [v]
  sought.any fun v => Value.isEqualTo v (foreign.read? l.foreignPath)

/-- What a join makes of a row: a row for each foreign document that belongs to it, or, if rows
without a match are kept, one row with the list of all of them. -/
def extend (l : Lookup) (foreign : List Document) (row : Document) : List Document :=
  let found := foreign.filter (l.agrees row)
  if l.required then found.map fun f => row ++ [(l.key, .document f)]
  else [row ++ [(l.key, .array (found.map .document))]]

/-- The keys of a base collection and of joins are told apart: they differ from each other and from
the identity, and none is read as a path of several keys or as an operator. -/
structure Separate (base : String) (ls : List Lookup) : Prop where
  nodup : (base :: ls.map (·.key)).Nodup
  isKey : ∀ key ∈ base :: ls.map (·.key), Path.IsKey key
  idKey_notMem : idKey ∉ base :: ls.map (·.key)
  not_isOperator : ∀ key ∈ base :: ls.map (·.key), isOperator key = false

end Lookup

/-- The rows of joins, of which the last is made last. -/
def extendAll (documents : String → List Document) (ls : List Lookup) (rows : List Document) :
    List Document :=
  ls.foldl (fun rows l => rows.flatMap (l.extend (documents l.schema))) rows

/-- **The join** of a base collection with others: a row for each document of the base collection,
in their order, extended by one join after another. -/
def joinedRows (documents : String → List Document) (base : String) (ls : List Lookup) :
    List Document :=
  extendAll documents ls ((documents base).map (Document.under base))

/-! ### One join -/

/-- Equality to a value does not tell null from nothing. -/
theorem Value.isEqualTo_getD_null (expected : Value) (value : Option Value) :
    isEqualTo expected (some (value.getD .null)) = isEqualTo expected value := by
  rcases value with _ | v
  · rcases expected with a | items | d
    · have hequal : Atom.equal .null a = decide (Value.atom a = .null) := by
        cases a <;> rfl
      exact hequal
    · rfl
    · rfl
  · rfl

namespace Lookup

/-- The documents that a stage finds for a row are those that belong to it. -/
theorem partners_eq (l : Lookup) (foreign : List Document) (row : Document) :
    Stage.partners l.localPath l.foreignPath foreign row = foreign.filter (l.agrees row) := by
  have hagrees : ∀ f : Document,
      Stage.agrees (Stage.valueAt row l.localPath) (Stage.valueAt f l.foreignPath) =
        l.agrees row f := by
    intro f
    have hequals : Value.equals (some (Stage.valueAt f l.foreignPath)) =
        fun v => Value.isEqualTo v (f.read? l.foreignPath) := by
      funext v
      rw [Value.equals_eq, Stage.valueAt, Value.isEqualTo_getD_null]
    rw [agrees, Stage.valueAt]
    rcases row.read? l.localPath with _ | (a | items | d) <;> simp [Stage.agrees, hequals]
  rw [Stage.partners]
  exact List.filter_congr fun f _ => hagrees f

/-- What a join writes into a row extends it, where its key is new to the row. -/
private theorem written_eq_extend {l : Lookup} (hkey : Path.IsKey l.key) {row : Document}
    (hnew : l.key ∉ row.keys) (foreign : List Document) :
    l.written foreign row = l.extend foreign row := by
  have hwrite : ∀ v, row.write l.key v = row ++ [(l.key, v)] := by
    intro v
    rw [Document.write_key hkey, Document.put_of_not_mem hnew]
  simp only [written, extend, partners_eq, hwrite]

/-- A join puts one entry under its key at the end of a row. -/
private theorem keys_of_mem_extend {l : Lookup} {foreign : List Document} {row row' : Document}
    (h : row' ∈ l.extend foreign row) : row'.keys = row.keys ++ [l.key] := by
  rw [extend] at h
  have hkeys : ∀ v, Document.keys (row ++ [(l.key, v)]) = row.keys ++ [l.key] := fun v =>
    List.map_append
  split at h
  · obtain ⟨f, -, rfl⟩ := List.mem_map.mp h
    exact hkeys _
  · rw [List.mem_singleton.mp h]
    exact hkeys _

/-- Joins put one entry each, under their keys, at the end of the rows. -/
private theorem keys_of_mem_extendAll {documents : String → List Document} {ls : List Lookup}
    {done : List String} {rows : List Document} (hrows : ∀ row ∈ rows, Document.keys row = done) :
    ∀ row ∈ extendAll documents ls rows, Document.keys row = done ++ ls.map (·.key) := by
  induction ls generalizing done rows with
  | nil => exact fun row hrow => (hrows row hrow).trans (List.append_nil done).symm
  | cons l ls ih =>
    have hextended : ∀ row ∈ rows.flatMap (l.extend (documents l.schema)),
        Document.keys row = done ++ [l.key] := by
      intro row hrow
      obtain ⟨start, hstart, hrow⟩ := List.mem_flatMap.mp hrow
      rw [keys_of_mem_extend hrow, hrows start hstart]
    have hall := ih hextended
    rwa [List.append_assoc, List.singleton_append] at hall

end Lookup

/-- A base document stands alone under its key. -/
private theorem keys_of_mem_under {schema : String} {ds : List Document} :
    ∀ row ∈ ds.map (Document.under schema), Document.keys row = [schema] := by
  intro row hrow
  obtain ⟨d, -, rfl⟩ := List.mem_map.mp hrow
  rfl

/-- A joined row has the keys of all collections, in the order of the joins. -/
theorem keys_of_mem_joinedRows {documents : String → List Document} {schema : String}
    {ls : List Lookup} :
    ∀ row ∈ joinedRows documents schema ls, Document.keys row = schema :: ls.map (·.key) :=
  Lookup.keys_of_mem_extendAll keys_of_mem_under

namespace Stage

variable (collection : String → List Document)

/-- **The stages of one join** extend each row by the join, where its key is new to the rows. -/
theorem runAll_join [RegexEngine] {l : Lookup} (hkey : Path.IsKey l.key) {rows : List Document}
    (hnew : ∀ row ∈ rows, l.key ∉ Document.keys row) :
    runAll collection (Pipeline.lookupStages l) rows =
      .ok (rows.flatMap (l.extend (collection l.schema))) := by
  rw [runAll_lookupStages]
  exact congrArg Except.ok (congrArg List.flatten (List.map_congr_left fun row hrow =>
    Lookup.written_eq_extend hkey (hnew row hrow) _))

/-- **The stages of several joins** extend rows by one join after another, where their keys are new
to the rows and differ from each other. -/
theorem runAll_joins [RegexEngine] {done : List String} {ls : List Lookup}
    (hkeys : ∀ l ∈ ls, Path.IsKey l.key) (hnodup : (done ++ ls.map (·.key)).Nodup)
    {rows : List Document} (hrows : ∀ row ∈ rows, Document.keys row = done) :
    runAll collection (ls.flatMap Pipeline.lookupStages) rows =
      .ok (extendAll collection ls rows) := by
  -- By induction on the joins; every row holds the keys of the joins that were made.
  induction ls generalizing done rows with
  | nil => rfl
  | cons l ls ih =>
    obtain ⟨hkey, hrest⟩ := List.forall_mem_cons.mp hkeys
    have hassoc : done ++ (l :: ls).map (·.key) = done ++ [l.key] ++ ls.map (·.key) := by
      rw [List.map_cons, List.append_assoc, List.singleton_append]
    have hnew : l.key ∉ done := by
      intro hmem
      exact (List.nodup_append.mp hnodup).2.2 l.key hmem l.key List.mem_cons_self rfl
    have hextended : ∀ row ∈ extendAll collection [l] rows, Document.keys row = done ++ [l.key] :=
      Lookup.keys_of_mem_extendAll hrows
    rw [List.flatMap_cons, runAll_append,
      runAll_join collection hkey fun row hrow => by rwa [hrows row hrow]]
    exact ih hrest (by rwa [← hassoc]) hextended

/-- The joins of a joined read leave its joined rows. -/
theorem runAll_joinedRows [RegexEngine] {schema : String} {ls : List Lookup}
    (hnodup : (schema :: ls.map (·.key)).Nodup)
    (hkeys : ∀ key ∈ schema :: ls.map (·.key), Path.IsKey key) :
    runAll collection (ls.flatMap Pipeline.lookupStages)
        ((collection schema).map (Document.under schema)) =
      .ok (joinedRows collection schema ls) :=
  runAll_joins collection
    (fun l hl => hkeys l.key (List.mem_cons_of_mem _ (List.mem_map_of_mem hl)))
    (by simpa using hnodup) keys_of_mem_under

/-- The projection of a joined read lists the keys that its rows have, so it changes none. -/
theorem project_joinedRow {schema : String} {ls : List Lookup}
    (hkeys : Lookup.Separate schema ls) {row : Document}
    (hrow : row ∈ joinedRows collection schema ls) :
    Document.project (Pipeline.listing (schema :: ls.map (·.key))) row = row :=
  Document.project_listing (keys_of_mem_joinedRows row hrow) hkeys.nodup hkeys.isKey
    hkeys.idKey_notMem

/-- **The stages of a joined read** deliver the selection of its joined rows, as they are. -/
theorem runAll_joinedRead [RegexEngine] {schema : String} {ls : List Lookup}
    (hkeys : Lookup.Separate schema ls) (sel : Selection)
    (hsize : (joinedRows collection schema ls).length < 2 ^ 63) :
    runAll collection
        (Pipeline.stagesOf schema ls sel (Pipeline.listing (schema :: ls.map (·.key))))
        (collection schema) =
      sel.apply (joinedRows collection schema ls) := by
  have hjoins := runAll_joinedRows collection hkeys.nodup hkeys.isKey
  have hschema : isOperator schema = false := hkeys.not_isOperator schema List.mem_cons_self
  rw [runAll_stagesOf collection hschema sel _ hjoins]
  rw [runAll_selectionStages collection sel hsize]
  exact Selection.map_apply_eq_self fun row hrow => project_joinedRow collection hkeys hrow

/-- The stages of a joined read that selects everything deliver its joined rows, however many these
are. -/
theorem runAll_joinedRead_everything [RegexEngine] {schema : String} {ls : List Lookup}
    (hkeys : Lookup.Separate schema ls) :
    runAll collection
        (Pipeline.stagesOf schema ls .everything (Pipeline.listing (schema :: ls.map (·.key))))
        (collection schema) =
      .ok (joinedRows collection schema ls) := by
  have hjoins := runAll_joinedRows collection hkeys.nodup hkeys.isKey
  have hschema : isOperator schema = false := hkeys.not_isOperator schema List.mem_cons_self
  rw [runAll_stagesOf collection hschema .everything _ hjoins]
  change Except.ok ((joinedRows collection schema ls).map _) = _
  refine congrArg Except.ok ?_
  rw [List.map_congr_left fun row hrow => project_joinedRow collection hkeys hrow, List.map_id']

end Stage

/-! ### Joined reads -/

/-- A joined read that compiles runs the pipeline of its joins, its selection and its projection. -/
theorem Query.exists_of_compile_joined {q : Query} {plan : QueryPlan} {ls : List Lookup}
    (hread : q.action = .read) (hjoins : q.joins ≠ []) (hplan : q.compile = .ok plan)
    (hls : Join.lookups q.joins = .ok ls) :
    ∃ sel listed, q.selection .qualified = .ok sel ∧ Pipeline.projection q ls = .ok listed ∧
      plan = .join ⟨q.schema, Pipeline.stagesOf q.schema ls sel listed⟩ (.ofLookups ls) := by
  rw [compile_of_read hread, QueryPlan.ofRead_joined hjoins, hls] at hplan
  obtain ⟨_, hls', hplan⟩ := bind_eq_ok_iff.mp hplan
  obtain rfl := Except.ok.inj hls'
  obtain ⟨sel, hsel, hplan⟩ := bind_eq_ok_iff.mp hplan
  obtain ⟨listed, hlisted, hplan⟩ := bind_eq_ok_iff.mp hplan
  exact ⟨sel, listed, hsel, hlisted, (Except.ok.inj hplan).symm⟩

/-- Without fields a joined read projects the base document and all joined ones. -/
theorem Query.compile_joined {q : Query} {plan : QueryPlan} {ls : List Lookup}
    (hread : q.action = .read) (hjoins : q.joins ≠ []) (hfields : q.fields = [])
    (hplan : q.compile = .ok plan) (hls : Join.lookups q.joins = .ok ls) :
    ∃ sel, q.selection .qualified = .ok sel ∧
      plan = .join
        ⟨q.schema,
          Pipeline.stagesOf q.schema ls sel (Pipeline.listing (q.schema :: ls.map (·.key)))⟩
        (.ofLookups ls) := by
  obtain ⟨sel, listed, hsel, hlisted, hplan⟩ :=
    exists_of_compile_joined hread hjoins hplan hls
  rw [Pipeline.projection, hfields] at hlisted
  obtain rfl := Except.ok.inj hlisted
  exact ⟨sel, hsel, hplan⟩

namespace Database

/-- A joined read that selects everything delivers all rows of the join, however many these are. -/
theorem execute_wholeJoin [RegexEngine] {db : Database} {s : Server} {cat : Catalog} {q : Query}
    {ls : List Lookup} (hsound : db.connection.faults = none)
    (hcat : s.store.catalog? db.connection.handle = some cat) (hread : q.action = .read)
    (hjoins : q.joins ≠ []) (hfields : q.fields = [])
    (hsel : q.selection .qualified = .ok .everything) (hls : Join.lookups q.joins = .ok ls)
    (hkeys : Lookup.Separate q.schema ls) :
    (db.execute q s).1 =
      ⟨(joinedRows (fun name => (cat.collection name).documents) q.schema ls).map
        (.ofJoined (.ofLookups ls)), .ok ()⟩ := by
  have hplan : q.compile = .ok (.join
      ⟨q.schema,
        Pipeline.stagesOf q.schema ls .everything (Pipeline.listing (q.schema :: ls.map (·.key)))⟩
      (.ofLookups ls)) := by
    rw [Query.compile_of_read hread, QueryPlan.ofRead_joined hjoins, hls, hsel]
    change (Pipeline.projection q ls >>= _) = _
    rw [Pipeline.projection, hfields]
    rfl
  rw [execute, hplan]
  change (db.run (.join _ _) s).1 = _
  rw [run_join hcat hsound, Catalog.aggregate, Stage.runAll_joinedRead_everything _ hkeys]
  rfl

/-- **Joined reads compute the join.** Where the keys of a joined read are told apart, executing it
delivers the rows of the join, selected by the filters on rows, ordered by the sorts and cut to the
page, in this order; where the filters cannot be decided, it fails with their error and delivers
no row. -/
theorem execute_joined [RegexEngine] {db : Database} {s : Server} {cat : Catalog} {q : Query}
    {plan : QueryPlan} {ls : List Lookup} (hsound : db.connection.faults = none)
    (hcat : s.store.catalog? db.connection.handle = some cat) (hread : q.action = .read)
    (hjoins : q.joins ≠ []) (hfields : q.fields = []) (hplan : q.compile = .ok plan)
    (hls : Join.lookups q.joins = .ok ls) (hkeys : Lookup.Separate q.schema ls)
    (hsize : (joinedRows (fun name => (cat.collection name).documents) q.schema ls).length <
      2 ^ 63) :
    ∃ sel, q.selection .qualified = .ok sel ∧
      (db.execute q s).1 = .ofRead (Row.ofJoined (.ofLookups ls))
        (sel.apply (joinedRows (fun name => (cat.collection name).documents) q.schema ls)) := by
  obtain ⟨sel, hsel, rfl⟩ := Query.compile_joined hread hjoins hfields hplan hls
  refine ⟨sel, hsel, ?_⟩
  rw [execute, hplan]
  change Outcome.ofDelivery _ (db.connection.aggregate _ s).1 = _
  rw [Connection.aggregate_eq hcat, Connection.deliver_of_sound hsound, Catalog.aggregate,
    Stage.runAll_joinedRead _ hkeys sel hsize]

/-- A read of notes with their authors, and with the tags of each note. -/
def authoredNotes : Query where
  schema := "notes"
  action := .read
  joins := [.inner "authors" (.identity "authors") (.single (.name "by") "notes"),
    .left "tags" (.single (.name "note") "tags") (.identity "notes")]
  limits := [.count 5]

/-- Two notes, one author, who wrote the first, and no tags. -/
def noteCatalog : Catalog :=
  ⟨[("notes", ⟨[[(idKey, .int32 1), ("by", .int32 7)], [(idKey, .int32 2), ("by", .int32 8)]], []⟩),
    ("authors", ⟨[[(idKey, .int32 7)]], []⟩)]⟩

attribute [local instance] Runtime.engine

/-- Of two notes the one with an author is delivered, with the author and an empty list of tags. -/
theorem execute_joined_authoredNotes :
    ∃ plan ls sel, authoredNotes.compile = .ok plan ∧ Join.lookups authoredNotes.joins = .ok ls ∧
      authoredNotes.selection .qualified = .ok sel ∧ Lookup.Separate "notes" ls ∧
      (((ofConnection .sound).execute authoredNotes ⟨⟨noteCatalog, [], []⟩, 0⟩).1 =
        .ofRead (Row.ofJoined (.ofLookups ls)) (.ok [[
          ("notes", .document [(idKey, .int32 1), ("by", .int32 7)]),
          ("authors", .document [(idKey, .int32 7)]),
          ("tags", .array [])]])) := by
  let ls : List Lookup :=
    [⟨"authors", "authors", "notes.by", idKey, true⟩, ⟨"tags", "tags", "notes._id", "note", false⟩]
  have hsound : (ofConnection .sound).connection.faults = none := rfl
  have hcat : (Store.mk noteCatalog [] []).catalog? .base = some noteCatalog := rfl
  have hls : Join.lookups authoredNotes.joins = .ok ls := rfl
  have hkeys : Lookup.Separate authoredNotes.schema ls :=
    ⟨by decide, by decide, by decide, by decide⟩
  have hrows : joinedRows (fun name => (noteCatalog.collection name).documents)
      authoredNotes.schema ls = [[
        ("notes", .document [(idKey, .int32 1), ("by", .int32 7)]),
        ("authors", .document [(idKey, .int32 7)]),
        ("tags", .array [])]] := by decide +kernel
  obtain ⟨plan, hplan⟩ : ∃ plan, authoredNotes.compile = .ok plan := ⟨_, rfl⟩
  obtain ⟨sel, hsel, hexecute⟩ := execute_joined (s := ⟨⟨noteCatalog, [], []⟩, 0⟩) hsound hcat rfl
    (List.cons_ne_nil _ _) rfl hplan hls hkeys (by rw [hrows]; decide)
  rw [hrows] at hexecute
  have happly : sel = ⟨[], none, none, some 5⟩ := (Except.ok.inj hsel).symm
  rw [happly] at hexecute
  exact ⟨plan, ls, sel, hplan, hls, hsel, hkeys, hexecute⟩

end Database

end DocQuery
