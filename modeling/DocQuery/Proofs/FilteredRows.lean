import DocQuery.Proofs.JoinedRows
import DocQuery.Runtime.Regex.Engine

/-!
# Rows satisfy the filters that they were selected by

A filter of a query is decided by the store, on a document or on a row of a join, where a path goes
through arrays element by element. A caller reads the delivered row instead, which of a list that a
join attached knows the first document only. `Row.ReadsEqualTo` is the equality of a filter as the
caller sees it, and the main theorem, `Database.execute_filtered`, says that every delivered row has
it for every filter that a field is equal to a scalar, with one exception: of several documents that
a join attached as a list it may be another than the first that is equal.

The exception is real. A read of people with their pets, selected by the name of a pet, delivers an
owner of two pets whose first pet has another name (`Database.execute_ownersOfTom`).
-/

namespace DocQuery

/-! ### Equality to a scalar -/

/-- Whether a row as it is read is equal to a value at a field: it holds there the value, or an
array with an element equal to it, or it holds nothing and the value is null. -/
def Row.ReadsEqualTo (row : Row) (f : Field) (v : Value) : Prop :=
  (row.contains f = true ∧ ∃ w, row.value f = .ok w ∧
    (w.equal v = true ∨ ∃ items, w = .array items ∧ ∃ item ∈ items, item.equal v = true)) ∨
  row.contains f = false ∧ v = .null

/-- Whether a join attached several documents to a row as a list, of which another than the first,
which is read, is equal to a value at a field. -/
def Row.OtherEqualTo (ls : List Lookup) (row : Row) (f : Field) (v : Value) : Prop :=
  ∃ l ∈ ls, f.schema? = some l.key ∧ l.required = false ∧
    ∃ (d first : Document) (others : List Document), row = .ofJoined (.ofLookups ls) d ∧
      d.value? l.key = some (.array ((first :: others).map .document)) ∧
      ∃ partner ∈ others, ∃ path w, f.plainPath = .ok path ∧ partner.read? path = some w ∧
        w.equal v = true

/-- An array is equal to an atom if one of its elements is. -/
private theorem Value.isEqualTo_array {a : Atom} {items : List Value}
    (h : isEqualTo (.atom a) (some (.array items)) = true) :
    ∃ item ∈ items, item.equal (.atom a) = true := by
  rw [isEqualTo, someSubject, Bool.or_eq_true] at h
  rcases h with h | h
  · exact List.any_eq_true.mp h
  · rw [equal] at h
    · cases h
    · intro _ _ heq
      cases heq
    · intro _ _ _ heq
      cases heq
    · intro _ _ heq
      cases heq

/-- A row that reads what is equal to an atom is equal to it. -/
private theorem Row.Reads.readsEqualTo {row : Row} {f : Field} {held : Option Value}
    (h : row.Reads f held) {a : Atom} (hheld : Value.isEqualTo (.atom a) held = true) :
    row.ReadsEqualTo f (.atom a) := by
  rcases held with _ | w
  · exact .inr ⟨h.contains_eq, of_decide_eq_true hheld⟩
  · refine .inl ⟨h.contains_eq, w, h.value_eq, ?_⟩
    rcases w with b | items | d
    · exact .inl hheld
    · exact .inr ⟨items, rfl, Value.isEqualTo_array hheld⟩
    · exact .inl hheld

/-! ### Filters -/

namespace Filter

/-- Where a filter of equality is satisfied, the value at its field is equal to the scalar. -/
private theorem isEqualTo_of_satisfies [RegexEngine] {mode : Addressing} {f : Field} {v : Scalar}
    {query d : Document} (hquery : compile mode (.eq f v) = .ok query)
    (h : d.satisfies query = .ok true) :
    ∃ path, f.resolve mode = .ok path ∧
      Value.isEqualTo (.atom v.encode) (d.read? path) = true := by
  obtain ⟨path, hpath, hquery⟩ := bind_eq_ok_iff.mp hquery
  refine ⟨path, hpath, ?_⟩
  rcases hoperator : isOperator path with _ | _
  · rw [satisfies_compileValue hoperator hquery] at h
    have hholds : xor false (Value.isEqualTo (.atom v.encode) (d.read? path)) = true :=
      Except.ok.inj h
    rwa [Bool.false_xor] at hholds
  · obtain rfl : [(path, Value.document [("$eq", .atom v.encode)])] = query := Except.ok.inj hquery
    have hne : d.satisfies [(path, .document [("$eq", .atom v.encode)])] ≠ .ok true :=
      Document.satisfies_operator_ne (c := .equal) hoperator (by decide) rfl v.encode d
    exact absurd h hne

/-- Where all members of a clause are satisfied, so is each. -/
private theorem satisfies_of_satisfiesAll [RegexEngine] {d : Document} {queries : List Document}
    (h : d.satisfiesAll (queries.map .document) = .ok true) :
    ∀ query ∈ queries, d.satisfies query = .ok true := by
  induction queries with
  | nil => exact fun _ hquery => absurd hquery List.not_mem_nil
  | cons query queries ih =>
    obtain ⟨b, hb, h⟩ := bind_eq_ok_iff.mp h
    cases b
    · cases h
    · exact List.forall_mem_cons.mpr ⟨hb, ih h⟩

/-- Every filter of a list has its query document among those of the list. -/
private theorem exists_of_compileEach {mode : Addressing} {fs : List Filter}
    {queries : List Document} (h : compileEach mode fs = .ok queries) {f : Filter} (hf : f ∈ fs) :
    ∃ query ∈ queries, compile mode f = .ok query :=
  exists_result_of_mapM (compileEach_eq_mapM mode fs ▸ h) hf

/-- Where the filters of a query are satisfied, so is each of them. -/
private theorem exists_of_compileList [RegexEngine] {mode : Addressing} {fs : List Filter}
    {query d : Document} (hquery : compileList mode fs = .ok query)
    (h : d.satisfies query = .ok true) {f : Filter} (hf : f ∈ fs) :
    ∃ own, compile mode f = .ok own ∧ d.satisfies own = .ok true := by
  obtain ⟨queries, hqueries, hquery⟩ := bind_eq_ok_iff.mp hquery
  obtain rfl := Except.ok.inj hquery
  rw [satisfies_combineAll] at h
  obtain ⟨own, hown, hcompile⟩ := exists_of_compileEach hqueries hf
  exact ⟨own, hcompile, satisfies_of_satisfiesAll h own hown⟩

end Filter

/-! ### Projections that list keys -/

namespace Document

/-- Copying keys copies what a document holds under each. -/
private theorem value?_foldl_copy {d : Document} {keys : List String}
    (hdots : ∀ key ∈ keys, Path.IsKey key) {target : Document} {key : String}
    (h : target.value? key = d.value? key ∨ key ∈ keys ∧ d.value? key ≠ none) :
    (keys.foldl (fun target key => copy key target d) target).value? key = d.value? key := by
  induction keys generalizing target with
  | nil => exact h.resolve_right fun h => absurd h.1 List.not_mem_nil
  | cons first keys ih =>
    obtain ⟨hfirst, hdots⟩ := List.forall_mem_cons.mp hdots
    refine ih hdots ?_
    change (copyAt (Path.segments first) target d).value? key = d.value? key ∨ _
    rw [Path.segments_key hfirst, copyAt]
    rcases hv : d.value? first with _ | v
    · -- What is not there is not copied, and was not to be.
      refine h.imp id fun hlisted => ⟨(List.mem_cons.mp hlisted.1).resolve_left ?_, hlisted.2⟩
      rintro rfl
      exact hlisted.2 hv
    · by_cases hkey : first = key
      · subst hkey
        exact .inl (by rw [value?_put_self, hv])
      · rw [value?_put_of_ne target v hkey]
        exact h.imp id (And.imp_left fun hmem =>
          (List.mem_cons.mp hmem).resolve_left (Ne.symm hkey))

/-- A projection that lists keys keeps what stands under them. -/
private theorem value?_project_listing {d : Document} {keys : List String} (hnodup : keys.Nodup)
    (hdots : ∀ key ∈ keys, Path.IsKey key) (hother : ∃ key ∈ keys, key ≠ idKey) {key : String}
    (hkey : key ∈ keys) {v : Value} (hv : d.value? key = some v) :
    (project (Pipeline.listing keys) d).value? key = some v := by
  have hlisted : listedPaths (Pipeline.listing keys) = keys.filter (· != idKey) := by
    rw [listing_eq hnodup, listedPaths, List.filter_map, List.map_map]
    refine (List.map_id' _).trans (List.filter_congr fun key _ => ?_)
    simp [Value.countsAsTrue, Atom.countsAsTrue]
  have hidentity : keepsIdentity (Pipeline.listing keys) = true := by
    rw [listing_eq hnodup, keepsIdentity]
    rcases hid : value? (keys.map fun key => (key, Value.int32 1)) idKey with _ | w
    · rfl
    · obtain ⟨_, -, heq⟩ := List.mem_map.mp (mem_of_value? hid)
      rw [← (Prod.mk.inj heq).2]
      rfl
  have hkept : (keepOnly true (keys.filter (· != idKey)) d).value? key = some v := by
    rw [keepOnly, if_pos rfl, ← hv]
    refine value?_foldl_copy (fun key hkey => hdots key (List.mem_filter.mp hkey).1) ?_
    by_cases hid : key = idKey
    · subst hid
      exact .inl (by rw [identityOf, hv]; exact if_pos rfl)
    · exact .inr ⟨List.mem_filter.mpr ⟨hkey, by simpa using hid⟩, hv ▸ Option.some_ne_none v⟩
  obtain ⟨other, hmem, hne⟩ := hother
  have hcons : keys.filter (· != idKey) ≠ [] :=
    List.ne_nil_of_mem (List.mem_filter.mpr ⟨hmem, by simpa using hne⟩)
  rw [project_eq_keepOnly (hlisted ▸ hcons), hlisted, hidentity]
  exact hkept

end Document

/-- A joined read without fields keeps what its rows hold under their keys. -/
theorem Join.value?_project_listing {joins : List Join} (hjoins : joins ≠ []) {ls : List Lookup}
    (hls : lookups joins = .ok ls) {schema : String} (hnodup : (schema :: ls.map (·.key)).Nodup)
    (hkeys : ∀ key ∈ schema :: ls.map (·.key), Path.IsKey key) {key : String}
    (hkey : key ∈ schema :: ls.map (·.key)) {d : Document} {v : Value}
    (hv : d.value? key = some v) :
    (Document.project (Pipeline.listing (schema :: ls.map (·.key))) d).value? key = some v := by
  -- With a join there are two keys, of which one is not that of the identity.
  have hother : ∃ key ∈ schema :: ls.map (·.key), key ≠ idKey := by
    obtain ⟨j, js, rfl⟩ := List.exists_cons_of_ne_nil hjoins
    obtain ⟨l, -, hls⟩ := bind_eq_ok_iff.mp hls
    obtain ⟨rest, -, hls⟩ := bind_eq_ok_iff.mp hls
    obtain rfl := Except.ok.inj hls
    by_cases hid : schema = idKey
    · refine ⟨l.key, List.mem_cons_of_mem _ List.mem_cons_self, fun hkey => ?_⟩
      exact (List.nodup_cons.mp hnodup).1 (by rw [hid, ← hkey]; exact List.mem_cons_self)
    · exact ⟨schema, List.mem_cons_self, hid⟩
  exact Document.value?_project_listing hnodup hkeys hother hkey hv

/-! ### Filtered rows -/

/-- What is equal to an atom is so as the value of a field. -/
private theorem Value.isEqualTo_of_equal {a : Atom} {w : Value} (h : w.equal (.atom a) = true) :
    isEqualTo (.atom a) (some w) = true := by
  rcases w with b | items | d
  · exact h
  · cases h
  · cases h

/-- Where a row is equal to an atom at a path through a key, it is so as it is read, or another
document than the first of the list under the key is. -/
private theorem Attached.isEqualTo {foreign : List Document} {required : Bool} {held : Value}
    (hheld : Attached foreign required held) {row : Document} {key : String}
    (hkey : Path.IsKey key) (hrow : row.value? key = some held) {path : String} {a : Atom}
    (h : Value.isEqualTo (.atom a) (row.read? (Path.through key path)) = true) :
    Value.isEqualTo (.atom a) (Row.valueUnder? row key path) = true ∨
      required = false ∧ ∃ (first : Document) (others : List Document) (partner : Document)
        (w : Value), held = .array ((first :: others).map .document) ∧ partner ∈ others ∧
          partner.read? path = some w ∧ w.equal (.atom a) = true := by
  cases hheld with
  | one _ =>
    rw [Path.through, Document.read?_qualified hkey hrow] at h
    exact .inl (by rwa [Row.valueUnder?_document hrow])
  | @all ds _ =>
    rw [Document.read?_through_list hkey hrow] at h
    obtain ⟨w, hw, hequal⟩ := Value.isEqualTo_array h
    obtain ⟨partner, hpartner, hread⟩ := List.mem_filterMap.mp hw
    rcases ds with _ | ⟨first, others⟩
    · cases hpartner
    rcases List.mem_cons.mp hpartner with rfl | hpartner
    · refine .inl ?_
      rw [Row.valueUnder?_list hrow]
      change Value.isEqualTo (.atom a) (partner.read? path) = true
      rw [hread]
      exact Value.isEqualTo_of_equal hequal
    · exact .inr ⟨rfl, first, others, partner, w, rfl, hpartner, hread, hequal⟩

namespace Database

variable {db : Database} {s : Server} {cat : Catalog} {q : Query} {ls : List Lookup}
  {rows : List Row}

/-- **Rows satisfy the filters that they were selected by.** Take a read without projected fields
that succeeds, plain or with joins whose keys are told apart, and a filter of it that a field of the
base collection or of a join is equal to a scalar. Every row that is delivered is equal to it as it
is read, or else a join attached several documents to it as a list, of which another than the first
is equal. -/
theorem execute_filtered [RegexEngine] (hsound : db.connection.faults = none)
    (hcat : s.store.catalog? db.connection.handle = some cat) (hread : q.action = .read)
    (hfields : q.fields = []) (hls : Join.lookups q.joins = .ok ls)
    (hnodup : (q.schema :: ls.map (·.key)).Nodup)
    (hkeys : ∀ key ∈ q.schema :: ls.map (·.key), Path.IsKey key)
    (hoperators : ∀ key ∈ q.schema :: ls.map (·.key), isOperator key = false)
    (hexecute : (db.execute q s).1 = ⟨rows, .ok ()⟩) {f : Field} {v : Scalar} {schema : String}
    (hfilter : Filter.eq f v ∈ q.filters) (hschema : f.schema? = some schema)
    (hmem : schema ∈ q.schema :: ls.map (·.key)) :
    ∀ row ∈ rows,
      row.ReadsEqualTo f (.atom v.encode) ∨ row.OtherEqualTo ls f (.atom v.encode) := by
  by_cases hjoins : q.joins = []
  · -- Without joins the row has its document, which satisfies the filter.
    rw [hjoins] at hls
    obtain rfl := Except.ok.inj hls
    obtain rfl := List.mem_singleton.mp hmem
    obtain ⟨sel, ds, hsel, hds, rfl⟩ := exists_of_plainRead hsound hcat hread hjoins hexecute
    intro row hrow
    obtain ⟨d, hd, rfl⟩ := List.mem_map.mp hrow
    obtain ⟨own, hown, hsatisfies⟩ := Filter.exists_of_compileList
      (Query.filter_of_selection hsel) (Selection.mem_and_satisfies_of_apply hds hd).2 hfilter
    obtain ⟨path, hpath, hequal⟩ := Filter.isEqualTo_of_satisfies hown hsatisfies
    exact .inl ((Row.reads_ofDocument hschema hpath d).readsEqualTo hequal)
  · obtain ⟨sel, listed, found, hsel, hlisted, hfound, rfl⟩ := exists_of_joinedRead hsound hcat
      hread hjoins hls hnodup hkeys (hoperators _ List.mem_cons_self) hexecute
    rw [Pipeline.projection, hfields] at hlisted
    obtain rfl := Except.ok.inj hlisted
    intro row hrow
    obtain ⟨d, hd, rfl⟩ := List.mem_map.mp hrow
    obtain ⟨hjoined, hselected⟩ := Stage.selected_of_selectionStages hfound d hd
    obtain ⟨own, hown, hsatisfies⟩ := Filter.exists_of_compileList
      (Query.filter_of_selection hsel) hselected hfilter
    obtain ⟨qualified, hqualified, hequal⟩ := Filter.isEqualTo_of_satisfies hown hsatisfies
    obtain ⟨owner, path, howner, hpath, rfl⟩ := Field.exists_of_qualifiedPath hqualified
    obtain rfl := Option.some.inj (hschema.symm.trans howner)
    -- Under the key of the field the row holds what it held before it was projected.
    obtain ⟨name, required, held, hheld, hattached, hleft⟩ :=
      exists_attached _ hnodup hjoined hmem
    have hkept := Join.value?_project_listing hjoins hls hnodup hkeys hmem hheld
    have hreads := Row.reads_ofJoined hschema hpath ls
      (Document.project (Pipeline.listing (q.schema :: ls.map (·.key))) d)
    rw [Row.valueUnder?_congr (hkept.trans hheld.symm)] at hreads
    rcases hattached.isEqualTo (hkeys schema hmem) hheld hequal with hequal |
      ⟨hrequired, first, others, partner, w, rfl, hpartner, hread, hequal'⟩
    · exact .inl (hreads.readsEqualTo hequal)
    · obtain ⟨l, hl, rfl, hrequired⟩ := hleft.mp hrequired
      exact .inr ⟨l, hl, hschema, hrequired, _, first, others, rfl, hkept, partner, hpartner, path,
        w, hpath, hread, hequal'⟩

/-! ### Owners of a pet with a name -/

/-- The name of a pet. -/
def nameOfPet : Field := .single (.name "name") "pets"

/-- A read of people with their pets, joined in a way, selected by the name of a pet. -/
def ownersOfTom (kind : JoinKind) : Query where
  schema := "people"
  action := .read
  filters := [.eq nameOfPet (.string "tom")]
  joins := [.equality "pets" none kind (.single (.name "owner") "pets") (.identity "people")]

/-- One person with two pets. -/
def twoPets : Server :=
  ⟨⟨⟨[("people", ⟨[[(idKey, .int32 1)]], []⟩),
    ("pets", ⟨[[(idKey, .int32 1), ("owner", .int32 1), ("name", .string "rex")],
      [(idKey, .int32 2), ("owner", .int32 1), ("name", .string "tom")]], []⟩)]⟩, [], []⟩, 0⟩

/-- An outcome of one row, from what the row reads at a field. -/
private theorem exists_row {o : Outcome} {f : Field} {v : Value}
    (hvalues : (o.rows.map fun row => (row.value f).toOption) = [some v])
    (hending : o.ending.toOption = some ()) :
    ∃ row, o = ⟨[row], .ok ()⟩ ∧ row.value f = .ok v := by
  obtain ⟨row, rest, hrows, hvalue, hrest⟩ := List.map_eq_cons_iff.mp hvalues
  obtain rfl := List.map_eq_nil_iff.mp hrest
  refine ⟨row, hrows ▸ Outcome.eq_of_ending hending, ?_⟩
  rcases hread : row.value f with e | w <;> rw [hread] at hvalue
  · cases hvalue
  · exact congrArg Except.ok (Option.some.inj hvalue)

attribute [local instance] Runtime.engine

/-- An inner join makes a row of each pet, and the one that is delivered reads the name. -/
theorem execute_filtered_ownersOfTom :
    ∃ row, ((ofConnection .sound).execute (ownersOfTom .inner) twoPets).1 = ⟨[row], .ok ()⟩ ∧
      row.value nameOfPet = .ok (.string "tom") ∧
      row.ReadsEqualTo nameOfPet (.string "tom") := by
  let db := ofConnection .sound
  have hsound : db.connection.faults = none := rfl
  have hcat : twoPets.store.catalog? db.connection.handle = some twoPets.store.committed := rfl
  have hls : Join.lookups (ownersOfTom .inner).joins =
      .ok [⟨"pets", "pets", "people._id", "owner", true⟩] := rfl
  obtain ⟨row, hexecute, hvalue⟩ := exists_row (f := nameOfPet) (v := .string "tom")
    (o := (db.execute (ownersOfTom .inner) twoPets).1) (by decide +kernel) (by decide +kernel)
  refine ⟨row, hexecute, hvalue, ?_⟩
  have hschema : nameOfPet.schema? = some "pets" := rfl
  rcases execute_filtered (v := .string "tom") hsound hcat rfl rfl hls (by decide) (by decide)
    (by decide) hexecute List.mem_cons_self hschema (by decide) row (List.mem_singleton_self row)
    with h | ⟨l, hl, -, hrequired, -⟩
  · exact h
  · rw [List.mem_singleton.mp hl] at hrequired
    cases hrequired

/-- **A list is selected by any of its documents and read by the first.** The owner of two pets is
delivered for the name of the second, and the row reads the name of the first. -/
theorem execute_ownersOfTom :
    ∃ row, ((ofConnection .sound).execute (ownersOfTom .left) twoPets).1 = ⟨[row], .ok ()⟩ ∧
      row.value nameOfPet = .ok (.string "rex") ∧
      ¬ row.ReadsEqualTo nameOfPet (.string "tom") := by
  obtain ⟨row, hexecute, hvalue⟩ := exists_row (f := nameOfPet) (v := .string "rex")
    (o := ((ofConnection .sound).execute (ownersOfTom .left) twoPets).1) (by decide +kernel)
    (by decide +kernel)
  refine ⟨row, hexecute, hvalue, ?_⟩
  rintro (⟨-, w, hw, hequal⟩ | ⟨-, hnull⟩)
  · obtain rfl := Except.ok.inj (hvalue.symm.trans hw)
    rcases hequal with hequal | ⟨items, hitems, -⟩
    · exact absurd hequal (by decide)
    · cases hitems
  · cases hnull

end Database

end DocQuery
