import DocQuery.Proofs.CopiedPaths
import DocQuery.Proofs.JoinedRows
import DocQuery.Runtime.Regex.Engine
import Mathlib.Data.List.Forall2

/-!
# Projected rows read what full rows read

A joined read with fields projects each row to the paths of these fields. The projection copies path
after path into a new row (`Document.project_listing_eq`), and what the row then holds under a key
is a copy of the document there, or of each document in the list there, along the paths that remain
(`Attached.valueUnder?_copyAll`). So a field that was asked for reads the same in the projected row
as in the full one.

The main theorem, `Database.execute_projected`, says this of the rows of a read with fields and of
the same read without, position by position. It needs the paths not to lead through the ends of each
other, and documents without arrays directly in arrays.
-/

namespace DocQuery

/-! ### Projections that list paths -/

namespace Pipeline

theorem listing_append (paths : List String) (path : String) :
    listing (paths ++ [path]) = (listing paths).put path (.int32 1) := by
  rw [listing, List.foldl_append]
  rfl

/-- A projection lists the paths that it is made of, each flagged true. -/
private theorem mem_keys_listing {paths : List String} {path : String} :
    path ∈ (listing paths).keys ↔ path ∈ paths := by
  induction paths using List.reverseRecOn with
  | nil => rfl
  | append_singleton paths last ih =>
    rw [listing_append, Document.mem_keys_put, ih, List.mem_append, List.mem_singleton, or_comm]

private theorem value_of_mem_listing (paths : List String) :
    ∀ e ∈ listing paths, e.2 = .int32 1 := by
  induction paths using List.reverseRecOn with
  | nil => exact nofun
  | append_singleton paths last ih =>
    rw [listing_append]
    exact Document.forall_put (p := fun v => v = .int32 1) ih last rfl

/-- The paths that a query projects are those of its fields. -/
private theorem mem_qualifiedPaths {fs : List Field} {paths : List String}
    (h : qualifiedPaths fs = .ok paths) :
    (∀ f ∈ fs, ∃ path ∈ paths, f.qualifiedPath = .ok path) ∧
      ∀ path ∈ paths, ∃ f ∈ fs, f.qualifiedPath = .ok path := by
  rw [qualifiedPaths_eq_mapM] at h
  exact ⟨fun _ hf => exists_result_of_mapM h hf, fun _ hpath => exists_source_of_mapM h hpath⟩

/-- A query with fields projects their paths. -/
private theorem projection_of_fields {q : Query} (hfields : q.fields ≠ []) {paths : List String}
    (hpaths : qualifiedPaths q.fields = .ok paths) (ls : List Lookup) :
    projection q ls = .ok (listing paths) := by
  rw [projection]
  split
  · next hnil => exact absurd hnil hfields
  · rw [hpaths]
    rfl

end Pipeline

/-- A projection that lists paths copies them, where there is no identity to keep. -/
theorem Document.project_listing_eq {paths : List String} (hpaths : paths ≠ [])
    (hid : idKey ∉ paths) {d : Document} (hd : d.value? idKey = none) :
    ∃ listed : List String, (∀ path, path ∈ listed ↔ path ∈ paths) ∧
      project (Pipeline.listing paths) d = copyAll (listed.map Path.segments) [] d := by
  have hlisted : listedPaths (Pipeline.listing paths) = (Pipeline.listing paths).keys := by
    rw [listedPaths, List.filter_eq_self.mpr]
    · rfl
    · intro e he
      have hne : e.1 ≠ idKey := fun heq =>
        hid (heq ▸ Pipeline.mem_keys_listing.mp (List.mem_map_of_mem he))
      simp [hne, Pipeline.value_of_mem_listing paths e he, Value.countsAsTrue, Atom.countsAsTrue]
  refine ⟨(Pipeline.listing paths).keys, fun path => Pipeline.mem_keys_listing, ?_⟩
  obtain ⟨path, hpath⟩ := List.exists_mem_of_ne_nil paths hpaths
  have hcons : (Pipeline.listing paths).keys ≠ [] :=
    List.ne_nil_of_mem (Pipeline.mem_keys_listing.mpr hpath)
  have hidentity : d.identityOf = [] := by rw [identityOf, hd]
  rw [project_eq_keepOnly (hlisted ▸ hcons), hlisted, keepOnly_eq_copyAll, hidentity, ite_self]

/-! ### Copies of rows -/

/-- A copy of a row reads at its paths what the row does. -/
theorem Attached.valueUnder?_copyAll {foreign : List Document} {required : Bool} {held : Value}
    (hheld : Attached foreign required held)
    (hflat : ∀ d ∈ foreign, (Value.document d).isFlat = true) {row : Document} {key : String}
    (hrow : row.value? key = some held) {paths : List (List String)}
    (hfree : Path.PrefixFree paths) (hkey : [key] ∉ paths) {path : String}
    (hpath : key :: Path.segments path ∈ paths) :
    Row.valueUnder? (Document.copyAll paths [] row) key path = Row.valueUnder? row key path := by
  have htail : Path.segments path ∈ Path.tails key paths := Path.mem_tails.mpr hpath
  have hinside : ∀ d ∈ foreign,
      (Document.copyAll (Path.tails key paths) [] d).read? path = d.read? path := fun d hd =>
    Document.follow?_copyAll (hfree.tails key) htail (Path.segments_ne_nil path) (hflat d hd)
  have hcopy : (Document.copyAll paths [] row).value? key =
      Document.copyUnder (Path.tails key paths) held := by
    rw [Document.value?_copyAll hkey, if_neg (List.ne_nil_of_mem htail), hrow, Option.bind_some]
  cases hheld with
  | one hd =>
    rw [Row.valueUnder?_document hrow, Row.valueUnder?_document hcopy]
    exact hinside _ hd
  | @all ds hds =>
    have hcopies : Document.copyUnder (Path.tails key paths) (.array (ds.map .document)) =
        some (.array ((ds.map (Document.copyAll (Path.tails key paths) [])).map .document)) := by
      have hdocuments : (ds.map Value.document).filterMap Value.document? = ds := by
        rw [List.filterMap_map]
        exact List.filterMap_some
      rw [Document.copyUnder, hdocuments, List.map_map]
      rfl
    rw [Row.valueUnder?_list hrow, Row.valueUnder?_list (hcopy.trans hcopies)]
    rcases ds with _ | ⟨d, ds⟩
    · rfl
    · exact hinside d (hds List.mem_cons_self)

/-- A path through a key is no key itself. -/
private theorem Path.not_isKey_through (schema path : String) : ¬ IsKey (through schema path) := by
  rw [IsKey, through, String.toList_append, String.toList_append, not_not]
  exact List.mem_append_left _ (List.mem_append_right _ (by decide))

/-- A row of joins, projected to paths, reads at each of them what it did. -/
private theorem Row.valueUnder?_project {documents : String → List Document} {schema : String}
    {ls : List Lookup} (hkeys : Lookup.Separate schema ls)
    (hflat : ∀ name, ∀ d ∈ documents name, (Value.document d).isFlat = true) {paths : List String}
    (hpaths : ∀ p ∈ paths, ∃ owner path, p = Path.through owner path)
    (hfree : Path.PrefixFree (paths.map Path.segments)) {row : Document}
    (hrow : row ∈ joinedRows documents schema ls) {owner path : String}
    (hmem : Path.through owner path ∈ paths) :
    valueUnder? (Document.project (Pipeline.listing paths) row) owner path =
      valueUnder? row owner path := by
  have hrowKeys : Document.keys row = schema :: ls.map (·.key) :=
    keys_of_mem_joinedRows row hrow
  have hnotKey : ∀ p ∈ paths, ¬ Path.IsKey p := by
    intro p hp
    obtain ⟨owner, path, rfl⟩ := hpaths p hp
    exact Path.not_isKey_through owner path
  have hid : idKey ∉ paths := fun hid => hnotKey idKey hid (by decide)
  have hrowId : row.value? idKey = none :=
    Document.value?_eq_none_iff.mpr (hrowKeys ▸ hkeys.idKey_notMem)
  obtain ⟨listed, hlisted, hproject⟩ :=
    Document.project_listing_eq (List.ne_nil_of_mem hmem) hid hrowId
  have hfree' : Path.PrefixFree (listed.map Path.segments) := by
    have hsub : ∀ p ∈ listed.map Path.segments, p ∈ paths.map Path.segments := by
      intro p hp
      obtain ⟨path, hpath, rfl⟩ := List.mem_map.mp hp
      exact List.mem_map_of_mem ((hlisted path).mp hpath)
    exact fun p hp p' hp' => hfree p (hsub p hp) p' (hsub p' hp')
  have hsingle : ∀ key, [key] ∉ listed.map Path.segments := by
    intro key hkey
    obtain ⟨p, hp, hsegments⟩ := List.mem_map.mp hkey
    obtain ⟨first, second, rest, h⟩ := Path.exists_segments (hnotKey p ((hlisted p).mp hp))
    rw [h] at hsegments
    cases hsegments
  rw [hproject]
  by_cases howner : owner ∈ schema :: ls.map (·.key)
  · obtain ⟨name, required, held, hheld, hattached, -⟩ :=
      exists_attached documents hkeys.nodup hrow howner
    have hsegments : owner :: Path.segments path ∈ listed.map Path.segments := by
      rw [← Path.segments_qualified (hkeys.isKey owner howner)]
      exact List.mem_map_of_mem ((hlisted _).mpr hmem)
    exact hattached.valueUnder?_copyAll (hflat name) hheld hfree' (hsingle owner) hsegments
  · -- A collection that is not joined stands in neither row.
    have hnone : row.value? owner = none :=
      Document.value?_eq_none_iff.mpr (hrowKeys ▸ howner)
    refine valueUnder?_congr ?_ path
    rw [Document.value?_copyAll (hsingle owner), hnone, Option.bind_none, ite_self]

/-! ### Projected reads -/

namespace Database

/-- **Projection does not change what the fields read.** Take a joined read with fields, whose keys
are told apart and whose paths do not lead through the ends of each other, on documents without
arrays directly in arrays. If it succeeds, and so does the same read without fields, the two deliver
as many rows, and at each position the rows agree on every field: on whether they contain it, and on
the value that they read there. -/
theorem execute_projected [RegexEngine] {db : Database} {s : Server} {cat : Catalog} {q : Query}
    {ls : List Lookup} {paths : List String} {rows rows' : List Row}
    (hsound : db.connection.faults = none)
    (hcat : s.store.catalog? db.connection.handle = some cat) (hread : q.action = .read)
    (hjoins : q.joins ≠ []) (hfields : q.fields ≠ []) (hls : Join.lookups q.joins = .ok ls)
    (hkeys : Lookup.Separate q.schema ls) (hpaths : Pipeline.qualifiedPaths q.fields = .ok paths)
    (hfree : Path.PrefixFree (paths.map Path.segments))
    (hflat : ∀ name, ∀ d ∈ (cat.collection name).documents, (Value.document d).isFlat = true)
    (hprojected : (db.execute q s).1 = ⟨rows, .ok ()⟩)
    (hfull : (db.execute { q with fields := [] } s).1 = ⟨rows', .ok ()⟩) :
    List.Forall₂ (fun row row' => ∀ f ∈ q.fields,
      row.contains f = row'.contains f ∧ row.value f = row'.value f) rows rows' := by
  have hschema : isOperator q.schema = false := hkeys.not_isOperator _ List.mem_cons_self
  obtain ⟨sel, listed, found, hsel, hlisted, hfound, rfl⟩ := exists_of_joinedRead hsound hcat hread
    hjoins hls hkeys.nodup hkeys.isKey hschema hprojected
  obtain ⟨sel', listed', found', hsel', hlisted', hfound', rfl⟩ := exists_of_joinedRead
    (q := { q with fields := [] }) hsound hcat hread hjoins hls hkeys.nodup hkeys.isKey hschema
    hfull
  -- Both select the same rows of the join.
  obtain rfl : sel' = sel := Except.ok.inj (hsel'.symm.trans hsel)
  obtain rfl : found' = found := Except.ok.inj (hfound'.symm.trans hfound)
  obtain rfl : Pipeline.listing paths = listed :=
    Except.ok.inj ((Pipeline.projection_of_fields hfields hpaths ls).symm.trans hlisted)
  obtain rfl : Pipeline.listing (q.schema :: ls.map (·.key)) = listed' := Except.ok.inj hlisted'
  obtain ⟨hfieldPaths, hpathFields⟩ := Pipeline.mem_qualifiedPaths hpaths
  have hthrough : ∀ p ∈ paths, ∃ owner path, p = Path.through owner path := by
    intro p hp
    obtain ⟨f, -, hf⟩ := hpathFields p hp
    obtain ⟨owner, path, -, -, heq⟩ := Field.exists_of_qualifiedPath hf
    exact ⟨owner, path, heq⟩
  rw [List.forall₂_map_left_iff, List.forall₂_map_right_iff, List.forall₂_same]
  intro row hrow f hf
  obtain ⟨hjoined, -⟩ := Stage.selected_of_selectionStages hfound row hrow
  obtain ⟨p, hp, hqualified⟩ := hfieldPaths f hf
  obtain ⟨owner, path, howner, hpath, rfl⟩ := Field.exists_of_qualifiedPath hqualified
  have hreads := Row.reads_ofJoined howner hpath ls
    (Document.project (Pipeline.listing paths) row)
  rw [Row.valueUnder?_project hkeys hflat hthrough hfree hjoined hp] at hreads
  -- Without fields the projection leaves the row as it is.
  have hreads' := Row.reads_ofJoined howner hpath ls row
  rw [Stage.project_joinedRow _ hkeys hjoined]
  exact ⟨hreads.contains_eq.trans hreads'.contains_eq.symm,
    hreads.value_eq.trans hreads'.value_eq.symm⟩

/-! ### People and their pets -/

/-- A read of people with their pets as a list, for the city of the address, the days of the notes
and the pet's name. -/
def citiesAndPets : Query where
  schema := "people"
  action := .read
  fields := [.path [.name "address", .name "city"] "people",
    .path [.name "notes", .name "day"] "people", .single (.name "name") "pets"]
  joins := [.left "pets" (.single (.name "owner") "pets") (.identity "people")]

/-- One person with an address, a list of notes among which stands a number, and two pets. -/
def twoPetsServer : Server :=
  ⟨⟨⟨[("people", ⟨[[(idKey, .int32 1),
      ("address", .document [("street", .int32 7), ("city", .string "Rome")]),
      ("notes", .array [.document [("day", .int32 1)], .int32 5, .document [("day", .int32 2)]])]],
      []⟩),
    ("pets", ⟨[[(idKey, .int32 1), ("owner", .int32 1), ("name", .string "rex")],
      [(idKey, .int32 2), ("owner", .int32 1), ("name", .string "tom")]], []⟩)]⟩, [], []⟩, 0⟩

attribute [local instance] Runtime.engine

/-- The city, the days of the two notes and the name of the first pet are read of both rows. -/
theorem execute_projected_citiesAndPets :
    ∃ rows rows', ((ofConnection .sound).execute citiesAndPets twoPetsServer).1 = ⟨rows, .ok ()⟩ ∧
      ((ofConnection .sound).execute { citiesAndPets with fields := [] } twoPetsServer).1 =
        ⟨rows', .ok ()⟩ ∧
      (rows.map fun row => citiesAndPets.fields.map fun f => (row.value f).toOption) =
        [[some (.string "Rome"), some (.array [.int32 1, .int32 2]), some (.string "rex")]] ∧
      List.Forall₂ (fun row row' => ∀ f ∈ citiesAndPets.fields,
        row.contains f = row'.contains f ∧ row.value f = row'.value f) rows rows' := by
  let db := ofConnection .sound
  have hcat : twoPetsServer.store.catalog? db.connection.handle =
      some twoPetsServer.store.committed := rfl
  have hls : Join.lookups citiesAndPets.joins =
      .ok [⟨"pets", "pets", "people._id", "owner", false⟩] := rfl
  have hpaths : Pipeline.qualifiedPaths citiesAndPets.fields =
      .ok ["people.address.city", "people.notes.day", "pets.name"] := rfl
  have hflat : ∀ name, ∀ d ∈ (twoPetsServer.store.committed.collection name).documents,
      (Value.document d).isFlat = true := by
    intro name
    rw [Catalog.collection, twoPetsServer]
    simp only [Catalog.lookup]
    split
    · decide
    · split
      · decide
      · exact fun _ hd => absurd hd List.not_mem_nil
  have hvalues : ((db.execute citiesAndPets twoPetsServer).1.rows.map fun row =>
      citiesAndPets.fields.map fun f => (row.value f).toOption) =
        [[some (.string "Rome"), some (.array [.int32 1, .int32 2]), some (.string "rex")]] := by
    decide +kernel
  have hprojected := Outcome.eq_of_ending
    (o := (db.execute citiesAndPets twoPetsServer).1) (by decide +kernel)
  have hfull := Outcome.eq_of_ending
    (o := (db.execute { citiesAndPets with fields := [] } twoPetsServer).1) (by decide +kernel)
  exact ⟨_, _, hprojected, hfull, hvalues, execute_projected rfl hcat rfl (List.cons_ne_nil _ _)
    (List.cons_ne_nil _ _) hls ⟨by decide, by decide, by decide, by decide⟩ hpaths (by decide) hflat
    hprojected hfull⟩

end Database

end DocQuery
