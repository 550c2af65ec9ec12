import DocQuery.Proofs.Coercion
import DocQuery.Proofs.FilterMeaning
import DocQuery.Query.Form
import DocQuery.Schema.Form

/-!
# Descriptors are read back from JSON

Queries, schema operations and everything they are made of are written as JSON and read from it. For
each type there is a lemma `ofJson?_toJson`, which says that what was written is read as it was. The
lemmas are rules for the simplifier, and so are the ones on records and variants that they rest on:
a record is read by position, whatever its members are, and a variant by its name. Two types are
trees of their own, operands and filters; there the induction goes over the tree, and its lists are
read item by item.

Two kinds of scalars and values are left out. A double is written as decimal text, and a stored
value keeps less in JSON than it holds, such as the width of an integer. What holds none of these is
`IsPortable`, and `readable_from_json` is about all of them.
-/

namespace DocQuery

/-! ### Fields -/

@[simp] theorem FieldKey.ofJson?_toJson (k : FieldKey) : ofJson? k.toJson = some k := by
  induction k with
  | prefixed outer inner ihouter ihinner =>
    rw [toJson, Json.variant, ofJson?, ihouter, ihinner]
  | id => rfl
  | name s => rfl
  | aggregate => rfl

@[simp] theorem Json.list?_keys (keys : List FieldKey) :
    Json.list? FieldKey.ofJson? (.ofList FieldKey.toJson keys) = some keys :=
  Json.list?_ofList fun k _ => k.ofJson?_toJson

@[simp] theorem Field.ofJson?_toJson (f : Field) : ofJson? f.toJson = some f := by
  cases f <;> simp [toJson, ofJson?]

/-! ### Operands -/

/-- A scalar that is no double is read back. -/
theorem Scalar.ofJson?_toJson {s : Scalar} (hs : ∀ d, s ≠ .double d) :
    ofJson? s.toJson = some s := by
  cases s with
  | double d => exact absurd rfl (hs d)
  | _ => simp [toJson, ofJson?]

namespace Operand

/-- It holds no value that was built ahead of time, and no double. -/
def IsPortable (q : Operand) : Prop :=
  ∀ part ∈ q.parts, (∀ v, part ≠ .primitive v) ∧ ∀ d, part ≠ .bind (.double d)

private theorem itemsToJson_eq_map (items : List Operand) :
    itemsToJson items = items.map toJson := by
  induction items with
  | nil => rfl
  | cons q qs ih => rw [itemsToJson, ih, List.map_cons]

/-- Items are read back when each of them is. -/
private theorem itemsOfJson?_map {items : List Operand}
    (h : ∀ q ∈ items, ofJson? q.toJson = some q) :
    itemsOfJson? (items.map toJson) = some items := by
  induction items with
  | nil => rfl
  | cons q qs ih =>
    obtain ⟨hq, hqs⟩ := List.forall_mem_cons.mp h
    rw [List.map_cons, itemsOfJson?, hq, ih hqs]

/-- Entries are read back when each of them is. -/
private theorem entriesOfJson?_entriesToJson {entries : List (String × Operand)}
    (h : ∀ e ∈ entries, ofJson? e.2.toJson = some e.2) :
    entriesOfJson? (entriesToJson entries) = some entries := by
  induction entries with
  | nil => rfl
  | cons e es ih =>
    obtain ⟨he, hes⟩ := List.forall_mem_cons.mp h
    rw [entriesToJson, entriesOfJson?, he, ih hes]

/-- **An operand is read back**, if it is portable and its dictionaries are maps. -/
theorem ofJson?_toJson {q : Operand} (hportable : q.IsPortable) (hsorted : q.IsSorted) :
    ofJson? q.toJson = some q := by
  induction q using Operand.induction with
  | array items ih =>
    have hitems : itemsOfJson? (items.map toJson) = some items :=
      itemsOfJson?_map fun q hq => ih q hq ((forall_mem_parts_array.mp hportable).2 q hq)
        ((forall_mem_parts_array.mp hsorted).2 q hq)
    rw [toJson, itemsToJson_eq_map, Json.variant, ofJson?, hitems]
    rfl
  | dictionary entries ih =>
    have hentries : entriesOfJson? (entriesToJson entries) = some entries :=
      entriesOfJson?_entriesToJson fun e he =>
        ih e he ((forall_mem_parts_dictionary.mp hportable).2 e he)
          ((forall_mem_parts_dictionary.mp hsorted).2 e he)
    rw [toJson, Json.variant, ofJson?, hentries, Option.map_some, dictionaryOf,
      SortedMap.ofList_of_ascending ((forall_mem_parts_dictionary.mp hsorted).1 entries rfl)]
  | bind s =>
    have hs : ∀ d, s ≠ .double d := by
      rintro d rfl
      exact (hportable _ (List.mem_singleton.mpr rfl)).2 d rfl
    -- Only arrays and dictionaries are read here; the other variants go to the reader of leaves.
    change leafOfJson? (.variant "Bind" s.toJson) = some (.bind s)
    simp [leafOfJson?, Scalar.ofJson?_toJson hs]
  | null => rfl
  | enumCase name => rfl
  | default => rfl
  | primitive v => exact absurd rfl ((hportable _ (List.mem_singleton.mpr rfl)).1 v)
  | otherBackend text => rfl

end Operand

/-! ### Filters -/

@[simp] theorem Location.ofJson?_toJson (l : Location) : ofJson? l.toJson = some l := by
  cases l <;> rfl

@[simp] theorem FieldTest.ofJson?_toJson (test : FieldTest) : ofJson? test.toJson = some test := by
  cases test <;> simp [toJson, ofJson?]

@[simp] theorem Relation.ofJson?_toJson (r : Relation) : ofJson? r.toJson = some r := by
  cases r <;> rfl

namespace Filter

/-- The operand of a comparison with one. -/
def operand? : Filter → Option Operand
  | .value _ _ operand => some operand
  | _ => none

/-- The operands that a filter compares with. -/
def operands (f : Filter) : List Operand := f.leaves.filterMap operand?

/-- It holds no raw query document, and its operands are portable. -/
def IsPortable (f : Filter) : Prop :=
  (∀ document, .raw document ∉ f.leaves) ∧ ∀ operand ∈ f.operands, operand.IsPortable

/-- The dictionaries of its operands are maps. -/
def IsSorted (f : Filter) : Prop := ∀ operand ∈ f.operands, operand.IsSorted

private theorem eachToJson_eq_map (filters : List Filter) :
    eachToJson filters = filters.map toJson := by
  induction filters with
  | nil => rfl
  | cons f fs ih => rw [eachToJson, ih, List.map_cons]

/-- Filters are read back when each of them is. -/
private theorem itemsOfJson?_map {filters : List Filter}
    (h : ∀ f ∈ filters, ofJson? f.toJson = some f) :
    itemsOfJson? (filters.map toJson) = some filters := by
  induction filters with
  | nil => rfl
  | cons f fs ih =>
    obtain ⟨hf, hfs⟩ := List.forall_mem_cons.mp h
    rw [List.map_cons, itemsOfJson?, hf, ih hfs]

/-- The members of a group are in its leaves. -/
private theorem leaves_subset_group {f : Filter} {filters : List Filter} (hf : f ∈ filters)
    (relation : Relation) : f.leaves ⊆ (Filter.group filters relation).leaves := by
  rw [leaves]
  induction filters with
  | nil => cases hf
  | cons g gs ih =>
    rw [leavesOfAll]
    rcases List.mem_cons.mp hf with rfl | hf
    · exact List.subset_append_left _ _
    · exact List.subset_append_of_subset_right _ (ih hf)

/-- The operands of the members of a group are among those of the group. -/
private theorem operands_subset_group {f : Filter} {filters : List Filter} (hf : f ∈ filters)
    (relation : Relation) : f.operands ⊆ (Filter.group filters relation).operands :=
  List.filterMap_subset operand? (leaves_subset_group hf relation)

/-- The members of a group are portable when the group is. -/
private theorem IsPortable.of_group {f : Filter} {filters : List Filter} {relation : Relation}
    (h : (Filter.group filters relation).IsPortable) (hf : f ∈ filters) : f.IsPortable :=
  ⟨fun document hmem => h.1 document (leaves_subset_group hf relation hmem),
    fun operand hmem => h.2 operand (operands_subset_group hf relation hmem)⟩

/-- A variant of another name than that of groups is read as a filter that is none. -/
private theorem ofJson?_variant {name : String} (hname : name ≠ "Group") (content : Json) :
    ofJson? (.variant name content) = leafOfJson? (.variant name content) := by
  rw [Json.variant, ofJson?] <;> simp [hname]

/-- **A filter is read back**, if it is portable and its dictionaries are maps. -/
theorem ofJson?_toJson {f : Filter} (hportable : f.IsPortable) (hsorted : f.IsSorted) :
    ofJson? f.toJson = some f := by
  induction f using Filter.induction with
  | value field test operand =>
    have hself : operand ∈ (Filter.value field test operand).operands := List.mem_singleton.mpr rfl
    have hoperand : Operand.ofJson? operand.toJson = some operand :=
      Operand.ofJson?_toJson (hportable.2 operand hself) (hsorted operand hself)
    rw [toJson, ofJson?_variant (by decide)]
    simp [leafOfJson?, hoperand]
  | fields lhs test rhs =>
    rw [toJson, ofJson?_variant (by decide)]
    simp [leafOfJson?]
  | group filters relation ih =>
    have hfilters : itemsOfJson? (filters.map toJson) = some filters :=
      itemsOfJson?_map fun f hf => ih f hf (hportable.of_group hf) fun operand hmem =>
        hsorted operand (operands_subset_group hf relation hmem)
    -- The record of a group is taken apart by hand, since its members are read by the same
    -- recursion; its names are distinct whatever stands under them.
    have hdistinct : ∀ members relation : Json,
        Json.distinct ["filters", "relation"] [("filters", members), ("relation", relation)] =
          true := fun _ _ => rfl
    rw [toJson, eachToJson_eq_map, Json.variant, ofJson?, if_pos (hdistinct _ _), memberOfJson?,
      if_pos rfl, listOfJson?, hfilters]
    simp [Json.member?]
  | raw document => exact absurd (List.mem_singleton.mpr rfl) (hportable.1 document)
  | otherBackend text => rfl

end Filter

/-! ### Sorts and joins -/

/-- A sort whose direction is no stored value. -/
def SortBy.IsPortable (s : SortBy) : Prop := ∀ f v, s ≠ .field f (.custom v)

theorem SortDirection.ofJson?_toJson {direction : SortDirection}
    (h : ∀ v, direction ≠ .custom v) : ofJson? direction.toJson = some direction := by
  cases direction with
  | custom v => exact absurd rfl (h v)
  | ascending => rfl
  | descending => rfl

theorem SortBy.ofJson?_toJson {s : SortBy} (h : s.IsPortable) : ofJson? s.toJson = some s := by
  cases s with
  | field f direction =>
    have hdirection : SortDirection.ofJson? direction.toJson = some direction :=
      SortDirection.ofJson?_toJson fun v hv => h f v (hv ▸ rfl)
    simp [toJson, ofJson?, hdirection]
  | custom text => rfl

@[simp] theorem JoinKind.ofJson?_toJson (kind : JoinKind) : ofJson? kind.toJson = some kind := by
  cases kind <;> rfl

namespace Join

/-- The filters that a join asks for. -/
def conditions : Join → List Filter
  | .advanced _ _ _ conditions => conditions
  | _ => []

theorem ofJson?_toJson {j : Join} (hportable : ∀ f ∈ j.conditions, f.IsPortable)
    (hsorted : ∀ f ∈ j.conditions, f.IsSorted) : ofJson? j.toJson = some j := by
  cases j with
  | equality schema alias? kind foreignField localField => simp [toJson, ofJson?]
  | advanced schema alias? kind filters =>
    have hfilters : Json.list? Filter.ofJson? (.ofList Filter.toJson filters) = some filters :=
      Json.list?_ofList fun f hf => Filter.ofJson?_toJson (hportable f hf) (hsorted f hf)
    simp [toJson, ofJson?, hfilters]
  | custom text => rfl

end Join

/-! ### Queries -/

private theorem Limit.ofJson?_count (content : Json) :
    ofJson? (.variant "Count" content) = content.uint64?.map .count := rfl

@[simp] theorem Limit.ofJson?_toJson (l : Limit) : ofJson? l.toJson = some l := by
  cases l with
  | count n => rw [toJson, ofJson?_count, Json.uint64?_int, Option.map_some]
  | custom text => rfl

@[simp] theorem AggregateFunction.ofJson?_toJson (function : AggregateFunction) :
    ofJson? function.toJson = some function := by
  cases function <;> rfl

@[simp] theorem Aggregate.ofJson?_toJson (a : Aggregate) : ofJson? a.toJson = some a := by
  cases a <;> simp [toJson, ofJson?]

@[simp] theorem Action.ofJson?_toJson (a : Action) : ofJson? a.toJson = some a := by
  cases a <;> simp [toJson, ofJson?]

namespace Query

/-- The filters of a query, those that its joins ask for among them. -/
def allFilters (q : Query) : List Filter := q.filters ++ q.joins.flatMap Join.conditions

/-- The operands of a query: those of its filters and those of its rows. -/
def operands (q : Query) : List Operand := q.allFilters.flatMap Filter.operands ++ q.input.flatten

/-- It holds no stored value, no raw query document and no double. -/
structure IsPortable (q : Query) : Prop where
  filters : ∀ f ∈ q.allFilters, ∀ document, .raw document ∉ f.leaves
  operands : ∀ operand ∈ q.operands, operand.IsPortable
  sorts : ∀ s ∈ q.sorts, s.IsPortable

/-- Its dictionaries are maps, in the order of their keys. -/
def IsSorted (q : Query) : Prop := ∀ operand ∈ q.operands, operand.IsSorted

private theorem operands_subset_of_mem_allFilters {q : Query} {f : Filter} (hf : f ∈ q.allFilters) :
    f.operands ⊆ q.operands := fun _ hmem =>
  List.mem_append_left _ (List.mem_flatMap.mpr ⟨f, hf, hmem⟩)

private theorem mem_operands_of_mem_input {q : Query} {row : List Operand} {operand : Operand}
    (hrow : row ∈ q.input) (hoperand : operand ∈ row) : operand ∈ q.operands :=
  List.mem_append_right _ (List.mem_flatten.mpr ⟨row, hrow, hoperand⟩)

private theorem nodup_memberNames : memberNames.Nodup := by decide

/-- **A query is read back**, if it is portable and its dictionaries are maps. -/
theorem ofJson?_toJson {q : Query} (hportable : q.IsPortable) (hsorted : q.IsSorted) :
    ofJson? q.toJson = some q := by
  have hfields : Json.list? Field.ofJson? (.ofList Field.toJson q.fields) = some q.fields :=
    Json.list?_ofList fun f _ => f.ofJson?_toJson
  have hportable' : ∀ f ∈ q.allFilters, f.IsPortable := fun f hf =>
    ⟨hportable.filters f hf, fun operand hmem =>
      hportable.operands operand (operands_subset_of_mem_allFilters hf hmem)⟩
  have hsorted' : ∀ f ∈ q.allFilters, f.IsSorted := fun f hf operand hmem =>
    hsorted operand (operands_subset_of_mem_allFilters hf hmem)
  have hfilters : Json.list? Filter.ofJson? (.ofList Filter.toJson q.filters) = some q.filters :=
    Json.list?_ofList fun f hf => Filter.ofJson?_toJson
      (hportable' f (List.mem_append_left _ hf)) (hsorted' f (List.mem_append_left _ hf))
  have hinput : Json.list? (Json.list? Operand.ofJson?)
      (.ofList (.ofList Operand.toJson) q.input) = some q.input :=
    Json.list?_ofList fun row hrow => Json.list?_ofList fun operand hoperand =>
      Operand.ofJson?_toJson (hportable.operands operand (mem_operands_of_mem_input hrow hoperand))
        (hsorted operand (mem_operands_of_mem_input hrow hoperand))
  have hjoins : Json.list? Join.ofJson? (.ofList Join.toJson q.joins) = some q.joins :=
    Json.list?_ofList fun j hj => Join.ofJson?_toJson
      (fun f hf => hportable' f (List.mem_append_right _ (List.mem_flatMap.mpr ⟨j, hj, hf⟩)))
      fun f hf => hsorted' f (List.mem_append_right _ (List.mem_flatMap.mpr ⟨j, hj, hf⟩))
  have hsorts : Json.list? SortBy.ofJson? (.ofList SortBy.toJson q.sorts) = some q.sorts :=
    Json.list?_ofList fun s hs => SortBy.ofJson?_toJson (hportable.sorts s hs)
  have hlimits : ∀ limits : List Limit,
      Json.list? Limit.ofJson? (.ofList Limit.toJson limits) = some limits :=
    fun limits => Json.list?_ofList fun l _ => l.ofJson?_toJson
  rw [toJson, ofJson?, Json.fields?_object ?_ nodup_memberNames]
  · simp [hfields, hfilters, hinput, hjoins, hsorts, hlimits]
  · rfl

end Query

/-! ### Schema operations -/

@[simp] theorem SchemaAction.ofJson?_toJson (a : SchemaAction) : ofJson? a.toJson = some a := by
  cases a <;> rfl

@[simp] theorem IndexedField.ofJson?_toJson (f : IndexedField) : ofJson? f.toJson = some f := by
  cases f <;> simp [toJson, ofJson?]

@[simp] theorem Json.list?_indexedFields (fields : List IndexedField) :
    Json.list? IndexedField.ofJson? (.ofList IndexedField.toJson fields) = some fields :=
  Json.list?_ofList fun f _ => f.ofJson?_toJson

@[simp] theorem ConstraintKind.ofJson?_toJson (kind : ConstraintKind) :
    ofJson? kind.toJson = some kind := by
  -- The reader is unfolded up to the comparison of names before anything is simplified under it.
  cases kind <;>
    dsimp only [toJson, ofJson?, Json.variant?_variant, Option.bind_eq_bind, Option.bind_some] <;>
    simp

@[simp] theorem Constraint.ofJson?_toJson (c : Constraint) : ofJson? c.toJson = some c := by
  cases c <;> simp [toJson, ofJson?]

/-- **A schema operation is read back.** -/
theorem SchemaOperation.ofJson?_toJson (o : SchemaOperation) : ofJson? o.toJson = some o := by
  have hconstraints : Json.list? Constraint.ofJson? (.ofList Constraint.toJson o.constraints) =
      some o.constraints := Json.list?_ofList fun c _ => c.ofJson?_toJson
  simp [toJson, ofJson?, hconstraints]

/-! ### All descriptors -/

/-- **Descriptors are read back from JSON** as they were written: queries, schema operations,
filters, joins, sorts, fields and operands, where they hold no stored value, no raw query document
and no double, and their dictionaries are maps. -/
theorem readable_from_json :
    (∀ q : Query, q.IsPortable → q.IsSorted → Query.ofJson? q.toJson = some q) ∧
      (∀ o : SchemaOperation, SchemaOperation.ofJson? o.toJson = some o) ∧
      (∀ f : Filter, f.IsPortable → f.IsSorted → Filter.ofJson? f.toJson = some f) ∧
      (∀ j : Join, (∀ f ∈ j.conditions, f.IsPortable) → (∀ f ∈ j.conditions, f.IsSorted) →
        Join.ofJson? j.toJson = some j) ∧
      (∀ s : SortBy, s.IsPortable → SortBy.ofJson? s.toJson = some s) ∧
      (∀ f : Field, Field.ofJson? f.toJson = some f) ∧
      ∀ q : Operand, q.IsPortable → q.IsSorted → Operand.ofJson? q.toJson = some q :=
  ⟨fun _ => Query.ofJson?_toJson, SchemaOperation.ofJson?_toJson, fun _ => Filter.ofJson?_toJson,
    fun _ => Join.ofJson?_toJson, fun _ => SortBy.ofJson?_toJson, Field.ofJson?_toJson,
    fun _ => Operand.ofJson?_toJson⟩

/-- A read of visits with a group of filters, a join on a condition and a page, which carries a row
of input as well. -/
def farVisits : Query where
  schema := "visits"
  action := .read
  filters := [.group [.eq (.single (.name "place") "visits") .null,
    .isIn (.extended [.prefixed (.name "day_") .id] "visits" none) [.int64 (-1), .bytes [0, 255]]]
    .any]
  input := [[Operand.visit, .default]]
  joins := [.advanced "places" (some "place") .left
    [.fields (.identity "place") (.equality false) (.single (.name "place") "visits")]]
  sorts := [.descending (.identity "visits")]
  limits := [.count 0xFFFFFFFFFFFFFFFF]

/-- The read of visits is read back. -/
theorem readable_from_json_farVisits :
    farVisits.IsPortable ∧ farVisits.IsSorted ∧
      Query.ofJson? farVisits.toJson = some farVisits := by
  have hoperands : farVisits.operands =
      [.bind .null, .array [.bind (.int64 (-1)), .bind (.bytes [0, 255])], Operand.visit,
        .default] := rfl
  have hvisit : Operand.visit.parts = [Operand.visit,
      .array [.bind (.int32 1), .bind (.int64 1), .null],
      .bind (.int32 1), .bind (.int64 1), .null, .enumCase "first", .bind .null] := rfl
  have hportable : farVisits.IsPortable := by
    refine ⟨?_, ?_, ?_⟩
    · simp [farVisits, Query.allFilters, Join.conditions, Filter.leaves, Filter.leavesOfAll,
        Filter.eq, Filter.isIn]
    · rw [hoperands]
      simp [Operand.IsPortable, Operand.parts, Operand.partsOfItems, hvisit]
      simp [Operand.visit, Operand.dictionaryOf]
    · simp [farVisits, SortBy.IsPortable, SortBy.descending]
  have hsorted : farVisits.IsSorted := by
    rw [Query.IsSorted, hoperands]
    simp [Operand.IsSorted, Operand.parts, Operand.partsOfItems, hvisit]
    simp [Operand.visit, Operand.dictionaryOf, SortedMap.ascending_ofList]
  exact ⟨hportable, hsorted, readable_from_json.1 farVisits hportable hsorted⟩

end DocQuery
