import DocQuery.Proofs.JoinedReads
import DocQuery.Proofs.RowReads
import DocQuery.Runtime.Regex.Engine

/-!
# Left joins

A left join keeps every row and attaches to it the list of all foreign documents that belong to it,
which may be empty. So a read whose joins are all left joins, and that selects everything, delivers
a row for each document of the base collection, in their order.

A caller does not see the lists. Under the name of the base collection a row reads what the base
document holds, and under the key of a join it reads what the first attached document holds, or
nothing where none is attached. `Database.execute_leftJoins` says both for any number of joins: each
of them looks at the row as the joins before it left it, and hides nothing from the others.
-/

namespace DocQuery

/-! ### Joins that keep every row -/

namespace Join

/-- The kind of a join; a join of some other backend has none. -/
def kind? : Join → Option JoinKind
  | .equality _ _ kind _ _ => some kind
  | .advanced _ _ kind _ => some kind
  | .custom _ => none

/-- A join that can be run is run as the kind that it is. -/
private theorem kind?_of_link {j : Join} {l : Link} (h : j.link = .ok l) :
    j.kind? = some l.kind := by
  unfold link at h
  split at h
  · obtain rfl := Except.ok.inj h
    rfl
  · obtain ⟨⟨foreignField, localField⟩, -, h⟩ := bind_eq_ok_iff.mp h
    obtain rfl := Except.ok.inj h
    rfl
  · cases h
  · cases h

/-- Left joins require no match. -/
private theorem required_of_left {j : Join} {l : Lookup} (hkind : j.kind? = some .left)
    (h : j.lookup = .ok l) : l.required = false := by
  obtain ⟨link, hlink, h⟩ := bind_eq_ok_iff.mp h
  obtain ⟨required, hrequired, h⟩ := bind_eq_ok_iff.mp h
  obtain ⟨localPath, -, h⟩ := bind_eq_ok_iff.mp h
  obtain ⟨foreignPath, -, h⟩ := bind_eq_ok_iff.mp h
  obtain rfl := Except.ok.inj h
  have hleft : link.kind = .left := Option.some.inj ((kind?_of_link hlink).symm.trans hkind)
  rw [hleft] at hrequired
  exact (Except.ok.inj hrequired).symm

/-- Several left joins require no match. -/
private theorem required_of_lefts {js : List Join} {ls : List Lookup}
    (hkinds : ∀ j ∈ js, j.kind? = some .left) (h : lookups js = .ok ls) :
    ∀ l ∈ ls, l.required = false := by
  intro l hl
  rw [lookups_eq_mapM] at h
  obtain ⟨j, hj, hlookup⟩ := exists_source_of_mapM h hl
  exact required_of_left (hkinds j hj) hlookup

end Join

/-! ### Rows of left joins -/

namespace Lookup

variable (documents : String → List Document)

/-- A row with the list of all documents that belong to it. -/
def attach (l : Lookup) (foreign : List Document) (row : Document) : Document :=
  row ++ [(l.key, .array ((foreign.filter (l.agrees row)).map .document))]

/-- A row with what several joins attach to it, one after another. -/
def attachAll (ls : List Lookup) (row : Document) : Document :=
  ls.foldl (fun row l => l.attach (documents l.schema) row) row

theorem attachAll_append (before after : List Lookup) (row : Document) :
    attachAll documents (before ++ after) row =
      attachAll documents after (attachAll documents before row) :=
  List.foldl_append

/-- Joins attach their lists behind a row, each under its key. -/
private theorem exists_attachAll (ls : List Lookup) (row : Document) :
    ∃ lists : Document, attachAll documents ls row = row ++ lists ∧
      lists.keys = ls.map (·.key) := by
  induction ls generalizing row with
  | nil => exact ⟨[], (List.append_nil row).symm, rfl⟩
  | cons l ls ih =>
    obtain ⟨lists, hlists, hkeys⟩ := ih (l.attach (documents l.schema) row)
    refine ⟨(l.key, .array (((documents l.schema).filter (l.agrees row)).map .document)) :: lists,
      ?_, congrArg (l.key :: ·) hkeys⟩
    have hcons : attachAll documents (l :: ls) row =
        attachAll documents ls (l.attach (documents l.schema) row) := rfl
    rw [hcons, hlists, attach, List.append_assoc, List.singleton_append]

/-- **Left joins** make of each row one row. -/
theorem extendAll_left {ls : List Lookup} (h : ∀ l ∈ ls, l.required = false)
    (rows : List Document) :
    extendAll documents ls rows = rows.map (attachAll documents ls) := by
  induction ls generalizing rows with
  | nil => exact (List.map_id' rows).symm
  | cons l ls ih =>
    obtain ⟨hl, hls⟩ := List.forall_mem_cons.mp h
    have hextend : l.extend (documents l.schema) =
        fun row => [l.attach (documents l.schema) row] := by
      funext row
      rw [extend, hl, if_neg Bool.false_ne_true]
      rfl
    have hcons : extendAll documents (l :: ls) rows =
        extendAll documents ls (rows.flatMap (l.extend (documents l.schema))) := rfl
    rw [hcons, ih hls, hextend, ← List.map_eq_flatMap, List.map_map]
    rfl

/-- The joins leave the base document of a row in its place. -/
private theorem valueUnder?_attachAll_base (ls : List Lookup) (schema : String) (d : Document)
    (path : String) :
    Row.valueUnder? (attachAll documents ls (d.under schema)) schema path = d.read? path := by
  obtain ⟨lists, hlists, -⟩ := exists_attachAll documents ls (d.under schema)
  rw [hlists]
  have hbase : Document.value? (d.under schema ++ lists) schema = some (.document d) := by
    rw [Document.under, List.singleton_append, Document.value?_cons, if_pos rfl]
  exact Row.valueUnder?_document hbase path

/-- The first document that a join finds for a row, as the joins before have left it. -/
def partner? (before : List Lookup) (l : Lookup) (row : Document) : Option Document :=
  (documents l.schema).find? (l.agrees (attachAll documents before row))

/-- The key of a join is new to the rows of the joins before it. -/
private theorem key_notMem_attachAll {schema : String} {before after : List Lookup} {l : Lookup}
    (hkeys : Separate schema (before ++ l :: after)) (d : Document) :
    l.key ∉ Document.keys (attachAll documents before (d.under schema)) := by
  obtain ⟨lists, hlists, hbefore⟩ := exists_attachAll documents before (d.under schema)
  have hrow : Document.keys (attachAll documents before (d.under schema)) =
      schema :: before.map (·.key) := by
    rw [hlists, Document.keys, List.map_append]
    exact congrArg (schema :: ·) hbefore
  have hsplit : schema :: (before ++ l :: after).map (·.key) =
      (schema :: before.map (·.key)) ++ l.key :: after.map (·.key) := by
    rw [List.map_append]
    rfl
  have hnodup := hkeys.nodup
  rw [hsplit] at hnodup
  rw [hrow]
  intro hmem
  exact (List.nodup_append.mp hnodup).2.2 l.key hmem l.key List.mem_cons_self rfl

/-- Under the key of a join a row holds what the first document does that the join finds for it. -/
private theorem valueUnder?_attachAll {schema : String} {before after : List Lookup} {l : Lookup}
    (hkeys : Separate schema (before ++ l :: after)) (d : Document) (path : String) :
    Row.valueUnder? (attachAll documents (before ++ l :: after) (d.under schema)) l.key path =
      (partner? documents before l (d.under schema)).bind (·.read? path) := by
  have hnew := key_notMem_attachAll documents hkeys d
  have hsplit : attachAll documents (before ++ l :: after) (d.under schema) =
      attachAll documents after
        (l.attach (documents l.schema) (attachAll documents before (d.under schema))) :=
    attachAll_append documents before (l :: after) (d.under schema)
  -- What the joins after it attach stands behind the list of the join.
  obtain ⟨rest, hrest, -⟩ := exists_attachAll documents after
    (l.attach (documents l.schema) (attachAll documents before (d.under schema)))
  rw [hsplit, hrest, attach, List.append_assoc, List.singleton_append, partner?,
    ← List.head?_filter]
  exact Row.valueUnder?_list (Document.value?_append_cons hnew _ rest) path

end Lookup

/-! ### Reads with left joins -/

namespace Database

variable {db : Database} {s : Server} {cat : Catalog} {q : Query} {plan : QueryPlan}
  {ls : List Lookup}

/-- A read with left joins alone delivers the rows of the base documents with all that the joins
attach to them. -/
private theorem execute_attached [RegexEngine] (hsound : db.connection.faults = none)
    (hcat : s.store.catalog? db.connection.handle = some cat) (hread : q.action = .read)
    (hjoins : q.joins ≠ []) (hkinds : ∀ j ∈ q.joins, j.kind? = some .left)
    (hsel : q.selection .qualified = .ok .everything) (hfields : q.fields = [])
    (hplan : q.compile = .ok plan) (hls : Join.lookups q.joins = .ok ls)
    (hkeys : Lookup.Separate q.schema ls) :
    (db.execute q s).1 =
      ⟨(cat.collection q.schema).documents.map fun d =>
        .ofJoined (.ofLookups ls)
          (Lookup.attachAll (fun name => (cat.collection name).documents) ls (d.under q.schema)),
        .ok ()⟩ := by
  have hexecute : db.execute q s = db.run plan s := by rw [execute, hplan]
  obtain ⟨sel, hsel', rfl⟩ := Query.compile_joined hread hjoins hfields hplan hls
  obtain rfl : sel = .everything := Except.ok.inj (hsel'.symm.trans hsel)
  rw [hexecute, run_join hcat hsound, Catalog.aggregate,
    Stage.runAll_joinedRead_everything _ hkeys, joinedRows,
    Lookup.extendAll_left _ (Join.required_of_lefts hkinds hls), Outcome.ofRead, List.map_map,
    List.map_map]
  rfl

/-- **Left joins keep every parent, and read the first match.** A read with left joins alone
delivers a row for each document of its collection, in their order. The row reads the fields of the
collection as the document has them, and the fields under a join as the first foreign document has
them that belongs to the row, as the joins before have left it; where there is none, it contains
nothing. -/
theorem execute_leftJoins [RegexEngine] (hsound : db.connection.faults = none)
    (hcat : s.store.catalog? db.connection.handle = some cat) (hread : q.action = .read)
    (hkinds : ∀ j ∈ q.joins, j.kind? = some .left) (hfilters : q.filters = [])
    (hsorts : q.sorts = []) (hlimits : q.limits = []) (hoffsets : q.offsets = [])
    (hfields : q.fields = []) (hplan : q.compile = .ok plan)
    (hls : Join.lookups q.joins = .ok ls) (hkeys : Lookup.Separate q.schema ls) :
    ∃ rows : List Row, (db.execute q s).1 = ⟨rows, .ok ()⟩ ∧
      rows.length = (cat.collection q.schema).documents.length ∧
      ∀ (i : Nat) (d : Document), (cat.collection q.schema).documents[i]? = some d →
        ∃ row, rows[i]? = some row ∧
          (∀ (f : Field) (path : String), f.schema? = some q.schema → f.plainPath = .ok path →
            row.Reads f (d.read? path)) ∧
          ∀ (before : List Lookup) (l : Lookup) (after : List Lookup), ls = before ++ l :: after →
            ∀ (f : Field) (path : String), f.schema? = some l.key → f.plainPath = .ok path →
              row.Reads f
                ((Lookup.partner? (fun name => (cat.collection name).documents) before l
                  (d.under q.schema)).bind (·.read? path)) := by
  by_cases hjoins : q.joins = []
  · have hnone : ls = [] := by
      rw [hjoins] at hls
      exact (Except.ok.inj hls).symm
    have hsel := Query.selection_everything .plain hfilters hsorts hoffsets hlimits
    refine ⟨_, execute_everything hsound hcat hread hjoins hsel, List.length_map _,
      fun i d hd => ⟨Row.ofDocument q.schema d, ?_, ?_, ?_⟩⟩
    · rw [List.getElem?_map, hd]
      rfl
    · exact fun f path hschema hpath => Row.reads_ofDocument hschema hpath d
    · intro before l after hsplit
      rw [hnone] at hsplit
      exact absurd hsplit.symm (List.append_ne_nil_of_right_ne_nil _ (List.cons_ne_nil l after))
  · have hsel := Query.selection_everything .qualified hfilters hsorts hoffsets hlimits
    refine ⟨_, execute_attached hsound hcat hread hjoins hkinds hsel hfields hplan hls hkeys,
      List.length_map _, fun i d hd =>
        ⟨.ofJoined (.ofLookups ls)
          (Lookup.attachAll (fun name => (cat.collection name).documents) ls (d.under q.schema)),
          ?_, ?_, ?_⟩⟩
    · rw [List.getElem?_map, hd]
      rfl
    · intro f path hschema hpath
      rw [← Lookup.valueUnder?_attachAll_base (fun name => (cat.collection name).documents) ls]
      exact Row.reads_ofJoined hschema hpath ls _
    · intro before l after hsplit f path hschema hpath
      rw [← Lookup.valueUnder?_attachAll _ (hsplit ▸ hkeys), ← hsplit]
      exact Row.reads_ofJoined hschema hpath ls _

/-- Two notes, of which the first has an author, and the city where the author lives. -/
def cityCatalog : Catalog :=
  ⟨[("notes", ⟨[[(idKey, .int32 1), ("by", .int32 7)], [(idKey, .int32 2), ("by", .int32 8)]], []⟩),
    ("authors", ⟨[[(idKey, .int32 7), ("city", .int32 3)]], []⟩),
    ("cities", ⟨[[(idKey, .int32 3), ("name", .string "Paris")]], []⟩)]⟩

/-- A read of the notes with their authors, and with the cities of these. -/
def cityNotes : Query where
  schema := "notes"
  action := .read
  joins := [.left "authors" (.identity "authors") (.single (.name "by") "notes"),
    .left "cities" (.identity "cities") (.single (.name "city") "authors")]

/-- The authors of notes, as their join is run. -/
def authorsOfNotes : Lookup := ⟨"authors", "authors", "notes.by", idKey, false⟩

/-- The cities of authors, as their join is run. -/
def citiesOfAuthors : Lookup := ⟨"cities", "cities", "authors.city", idKey, false⟩

attribute [local instance] Runtime.engine

/-- The city of the first note is found through its author, who stands in a list; the second note
has no author, and no city. -/
theorem execute_leftJoins_cityNotes :
    ∃ rows first second,
      ((ofConnection .sound).execute cityNotes ⟨⟨cityCatalog, [], []⟩, 0⟩).1 = ⟨rows, .ok ()⟩ ∧
      rows.length = 2 ∧ rows[0]? = some first ∧ rows[1]? = some second ∧
      first.Reads (.single (.name "name") "cities") (some (.string "Paris")) ∧
      second.Reads (.single (.name "name") "cities") none := by
  let db := ofConnection .sound
  let s : Server := ⟨⟨cityCatalog, [], []⟩, 0⟩
  have hsound : db.connection.faults = none := rfl
  have hcat : s.store.catalog? db.connection.handle = some cityCatalog := rfl
  have hkinds : ∀ j ∈ cityNotes.joins, j.kind? = some .left := by
    intro j hj
    simp only [cityNotes, List.mem_cons, List.not_mem_nil, or_false] at hj
    rcases hj with rfl | rfl <;> rfl
  have hls : Join.lookups cityNotes.joins = .ok [authorsOfNotes, citiesOfAuthors] := rfl
  have hkeys : Lookup.Separate "notes" [authorsOfNotes, citiesOfAuthors] :=
    ⟨by decide, by decide, by decide, by decide⟩
  obtain ⟨plan, hplan⟩ : ∃ plan, cityNotes.compile = .ok plan := ⟨_, rfl⟩
  obtain ⟨rows, hexecute, hlength, hrows⟩ := execute_leftJoins hsound hcat rfl hkinds rfl rfl rfl
    rfl rfl hplan hls hkeys
  have hcity : (Lookup.partner? (fun name => (cityCatalog.collection name).documents)
      [authorsOfNotes] citiesOfAuthors
      (Document.under "notes" [(idKey, .int32 1), ("by", .int32 7)])).bind (·.read? "name") =
        some (.string "Paris") := by decide +kernel
  have hnone : (Lookup.partner? (fun name => (cityCatalog.collection name).documents)
      [authorsOfNotes] citiesOfAuthors
      (Document.under "notes" [(idKey, .int32 2), ("by", .int32 8)])).bind (·.read? "name") =
        none := by decide +kernel
  obtain ⟨first, hfirst, -, hreadsFirst⟩ := hrows 0 [(idKey, .int32 1), ("by", .int32 7)] rfl
  obtain ⟨second, hsecond, -, hreadsSecond⟩ := hrows 1 [(idKey, .int32 2), ("by", .int32 8)] rfl
  refine ⟨rows, first, second, hexecute, hlength, hfirst, hsecond, ?_, ?_⟩
  · rw [← hcity]
    exact hreadsFirst [authorsOfNotes] citiesOfAuthors [] rfl _ "name" rfl rfl
  · rw [← hnone]
    exact hreadsSecond [authorsOfNotes] citiesOfAuthors [] rfl _ "name" rfl rfl

end Database

end DocQuery
