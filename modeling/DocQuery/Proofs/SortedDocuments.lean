import DocQuery.Proofs.ValueOrder
import Mathlib.Data.List.Forall2

/-!
# Sorted documents

A sort document is read as sort keys if every direction in it is one that a store knows. Sorting by
it is then what a stable sort should be, as far as the values at its paths have places: no document
stands behind a later one, and documents that are level in all keys keep their order, for descending
keys as well (`Document.sortBy_stable`).
-/

namespace DocQuery

/-! ### Reading sort documents -/

/-- The numbers that stand for a direction. -/
def Direction.numbers : Direction → List Value
  | .ascending => [.int32 1, .int64 1]
  | .descending => [.int32 (-1), .int64 (-1)]

theorem Direction.ofValue?_eq_some_iff {v : Value} {o : Direction} :
    ofValue? v = some o ↔ v ∈ o.numbers := by
  constructor
  · intro h
    unfold ofValue? at h
    split at h
    · grind [numbers]
    · grind [numbers]
    · cases h
  · cases o <;> simp only [numbers, List.mem_cons, List.not_mem_nil, or_false] <;>
      rintro (rfl | rfl) <;> rfl

/-- No direction changes what is level. -/
theorem Direction.orient_eq_eq_iff {direction : Direction} {o : Ordering} :
    direction.orient o = .eq ↔ o = .eq := by
  cases direction <;> cases o <;> decide

namespace SortKeys

/-- Whether a sort document lists the keys, each with a number for its direction. -/
def IsListedBy (keys : SortKeys) (spec : Document) : Prop :=
  List.Forall₂ (fun key e => e.1 = key.1 ∧ e.2 ∈ key.2.numbers) keys spec

private theorem ofDocument_of_isListedBy {keys : SortKeys} {spec : Document}
    (h : keys.IsListedBy spec) :
    ofDocument spec = .ok keys := by
  induction h with
  | nil => rfl
  | @cons key e keys spec hkey _ ih =>
    obtain ⟨path, direction⟩ := key
    obtain ⟨p, v⟩ := e
    obtain ⟨hpath, hv⟩ := hkey
    obtain rfl : p = path := hpath
    rw [ofDocument, Direction.ofValue?_eq_some_iff.mpr hv, ih]
    rfl

private theorem ofDocument_of_not_mem {spec : Document}
    (h : ∃ e ∈ spec, ∀ o : Direction, e.2 ∉ o.numbers) :
    ofDocument spec = .error (.invalidOperand "$sort") := by
  induction spec with
  | nil =>
    obtain ⟨e, he, _⟩ := h
    cases he
  | cons first spec ih =>
    obtain ⟨path, v⟩ := first
    rw [ofDocument]
    split
    · rfl
    · next direction hv =>
      obtain ⟨e, he, hnone⟩ := h
      rcases List.mem_cons.mp he with rfl | he
      · exact absurd (Direction.ofValue?_eq_some_iff.mp hv) (hnone direction)
      · rw [ih ⟨e, he, hnone⟩]
        rfl

/-! ### Documents in order -/

/-- Whether two documents are level in all keys. -/
def Level (keys : SortKeys) (d e : Document) : Prop :=
  ∀ key ∈ keys, Value.order (d.read? key.1) (e.read? key.1) = .eq

instance (keys : SortKeys) (d e : Document) : Decidable (keys.Level d e) :=
  inferInstanceAs (Decidable (∀ key ∈ keys, Value.order (d.read? key.1) (e.read? key.1) = .eq))

/-- One document belongs behind another: in the first key in which they are not level. -/
inductive Behind (d e : Document) : SortKeys → Prop
  /-- By the first key, as its direction sees it. -/
  | here {path : String} {direction : Direction} {keys : SortKeys}
      (h : direction.orient (Value.order (d.read? path) (e.read? path)) = .gt) :
      Behind d e ((path, direction) :: keys)
  /-- Level in the first key, and behind by the others. -/
  | later {path : String} {direction : Direction} {keys : SortKeys}
      (h : Value.order (d.read? path) (e.read? path) = .eq) (hkeys : Behind d e keys) :
      Behind d e ((path, direction) :: keys)

theorem level_cons {key : String × Direction} {keys : SortKeys} {d e : Document} :
    Level (key :: keys) d e ↔
      Value.order (d.read? key.1) (e.read? key.1) = .eq ∧ keys.Level d e :=
  List.forall_mem_cons

theorem compare_eq_eq_iff {keys : SortKeys} {d e : Document} :
    keys.compare d e = .eq ↔ keys.Level d e := by
  induction keys with
  | nil => exact iff_of_true rfl nofun
  | cons key keys ih =>
    rw [compare, Ordering.then_eq_eq, Direction.orient_eq_eq_iff, ih, level_cons]

theorem compare_eq_gt_iff {keys : SortKeys} {d e : Document} :
    keys.compare d e = .gt ↔ Behind d e keys := by
  induction keys with
  | nil => exact iff_of_false nofun nofun
  | cons key keys ih =>
    rw [compare, Ordering.then_eq_gt, Direction.orient_eq_eq_iff, ih]
    constructor
    · rintro (h | ⟨h, hkeys⟩)
      · exact .here h
      · exact .later h hkeys
    · rintro (h | ⟨h, hkeys⟩)
      · exact .inl h
      · exact .inr ⟨h, hkeys⟩

/-- Sort keys sort documents whose values have places as the places say. -/
private theorem sort_eq_byPlace {keys : SortKeys} {ds : List Document}
    (h : ∀ d ∈ ds, keys.Places d) :
    keys.sort ds = StableSort.sort (fun d e => keys.byPlace d e == .lt) ds := by
  refine StableSort.sort_congr fun d hd e he => ?_
  rw [compare_eq_byPlace (h d hd) (h e he)]

/-- Sorted documents are in the order of the keys. -/
theorem pairwise_sort {keys : SortKeys} {ds : List Document} (h : ∀ d ∈ ds, keys.Places d) :
    (keys.sort ds).Pairwise fun d e => keys.compare d e ≠ .gt := by
  have hsorted : ∀ d ∈ keys.sort ds, keys.Places d :=
    fun d hd => h d ((StableSort.sort_perm _ ds).subset hd)
  have hpairs : (keys.sort ds).Pairwise fun d e => (keys.byPlace d e).isLE := by
    rw [sort_eq_byPlace h]
    exact StableSort.sort_pairwise ds
  refine hpairs.imp_of_mem fun {d e} hd he hle => ?_
  rw [compare_eq_byPlace (hsorted d hd) (hsorted e he)]
  exact Ordering.isLE_iff_ne_gt.mp hle

/-- Sorting by sort keys is what every stable sort by them does. -/
theorem sort_eq_mergeSort {keys : SortKeys} {ds : List Document} (h : ∀ d ∈ ds, keys.Places d) :
    keys.sort ds = ds.mergeSort fun d e => (keys.compare d e).isLE := by
  have hle : ∀ d ∈ ds, ∀ e ∈ ds, (keys.byPlace d e).isLE = (keys.compare d e).isLE :=
    fun d hd e he => by rw [compare_eq_byPlace (h d hd) (h e he)]
  have hmap : (ds.mergeSort fun d e => (keys.byPlace d e).isLE).map id =
      (ds.map id).mergeSort fun d e => (keys.compare d e).isLE := List.map_mergeSort hle
  rw [List.map_id, List.map_id] at hmap
  rw [sort_eq_byPlace h, StableSort.sort_eq_mergeSort, hmap]

end SortKeys

/-- **Sorting is stable.** Let a sort document list sort keys at which the values of all documents
have places. Then sorting by it succeeds and delivers the same documents, none behind a later one,
and the documents level with one of them stand in it as they stood before. A sort document with a
direction that is none is refused, and no document is moved. -/
theorem Document.sortBy_stable (spec : Document) (ds : List Document) :
    (∀ keys : SortKeys, keys.IsListedBy spec → (∀ d ∈ ds, keys.Places d) →
      ∃ sorted, spec.sortBy ds = .ok sorted ∧ sorted.Perm ds ∧
        sorted.Pairwise (fun d e => ¬ SortKeys.Behind d e keys) ∧
        ∀ d ∈ ds, sorted.filter (fun e => keys.Level d e) = ds.filter fun e => keys.Level d e) ∧
    ((∃ e ∈ spec, ∀ o : Direction, e.2 ∉ o.numbers) →
      spec.sortBy ds = .error (.invalidOperand "$sort")) := by
  constructor
  · intro keys hlisted hplaces
    have hperm : (keys.sort ds).Perm ds := StableSort.sort_perm _ ds
    have hsorted : ∀ d ∈ keys.sort ds, keys.Places d := fun d hd => hplaces d (hperm.subset hd)
    refine ⟨keys.sort ds, ?_, hperm, ?_, fun d hd => ?_⟩
    · rw [sortBy, SortKeys.ofDocument_of_isListedBy hlisted]
      rfl
    · exact (SortKeys.pairwise_sort hplaces).imp fun hne hbehind =>
        hne (SortKeys.compare_eq_gt_iff.mpr hbehind)
    · have hlevel : ∀ e, keys.Places e → (keys.byPlace d e == .eq) = decide (keys.Level d e) := by
        intro e he
        rw [← SortKeys.compare_eq_byPlace (hplaces d hd) he, Bool.eq_iff_iff, beq_iff_eq,
          decide_eq_true_iff, SortKeys.compare_eq_eq_iff]
      rw [← List.filter_congr fun e he => hlevel e (hsorted e he),
        ← List.filter_congr fun e he => hlevel e (hplaces e he), SortKeys.sort_eq_byPlace hplaces,
        StableSort.filter_sort]
  · intro hnone
    rw [sortBy, SortKeys.ofDocument_of_not_mem hnone]
    rfl

/-- Names from the last to the first, and days from the first on: a document without a name is level
with one whose name is null, and they keep their order. -/
theorem Document.sortBy_stable_namesDown :
    let spec : Document := [("name", .int32 (-1)), ("day", .int64 1)]
    let keys : SortKeys := [("name", .descending), ("day", .ascending)]
    let ds : List Document := [[("day", .int64 3)], [("name", .string "tom")],
      [("name", .null), ("day", .int32 3)]]
    (∃ sorted, spec.sortBy ds = .ok sorted ∧ sorted.Perm ds ∧
      sorted.Pairwise (fun d e => ¬ SortKeys.Behind d e keys) ∧
      ∀ d ∈ ds, sorted.filter (fun e => keys.Level d e) = ds.filter fun e => keys.Level d e) ∧
    Document.sortBy [("day", .int32 0)] ds = .error (.invalidOperand "$sort") := by
  intro spec keys ds
  have hlisted : keys.IsListedBy spec := .cons ⟨rfl, by decide⟩ (.cons ⟨rfl, by decide⟩ .nil)
  have hplaces : ∀ d ∈ ds, keys.Places d := by decide +kernel
  have hnone : ∃ e ∈ [("day", Value.int32 0)], ∀ o : Direction, e.2 ∉ o.numbers :=
    ⟨_, List.mem_cons_self, fun o => by cases o <;> decide⟩
  exact ⟨(Document.sortBy_stable spec ds).1 keys hlisted hplaces,
    (Document.sortBy_stable _ ds).2 hnone⟩

example :
    Document.sortBy [("name", .int32 (-1)), ("day", .int64 1)]
        [[("day", .int64 3)], [("name", .string "tom")], [("name", .null), ("day", .int32 3)]] =
      .ok [[("name", .string "tom")], [("day", .int64 3)], [("name", .null), ("day", .int32 3)]] :=
  rfl

end DocQuery
