import DocQuery.Sorting

/-!
# Values in order

The order of a store is total on all values, but it is no order on all of them: values of one rank
that do not compare count as level. A double that is no number is level with every number, and a
symbol with every text, so what is level with one of them need not be level.

Without doubles and symbols this cannot happen. Every other value has a place: the rank of its kind,
and within the kind a list of integers, which is empty for the kinds that have no order. The main
lemma, `Value.order_eq_byPlace`, says that such values are ordered as their places are, and places
are compared number by number. So sort keys compare documents by a preorder
(`SortKeys.compare_eq_byPlace`), as far as the values at their paths have places.
-/

namespace DocQuery

/-! ### Places -/

/-- What decides within the kind of an atom: its number, or the numbers of its characters or bytes;
nothing where the kind has no order. -/
def Atom.extent : Atom → List Int
  | .bool b => [b.toNat]
  | .int32 n => [n.toInt]
  | .int64 n => [n.toInt]
  | .string s => s.toList.map fun c => (c.toNat : Int)
  | .binary _ bytes => bytes.map fun b => (b.toNat : Int)
  | .dateTime millis => [millis.toInt]
  | .objectId id => id.bytes.map fun b => (b.toNat : Int)
  | _ => []

/-- An atom that has a place among all values: neither a double nor a symbol. -/
def Atom.IsPlaced : Atom → Prop
  | .double _ => False
  | .symbol _ => False
  | _ => True

instance : (a : Atom) → Decidable a.IsPlaced
  | .double _ | .symbol _ => isFalse id
  | .null | .bool _ | .int32 _ | .int64 _ | .string _ | .binary _ _ | .dateTime _ | .objectId _
  | .regex _ _ | .timestamp _ _ | .javascript _ | .undefined | .minKey | .maxKey => isTrue trivial

namespace Value

/-- What decides within the kind of a value; documents and arrays have no order. -/
def extent : Option Value → List Int
  | some (.atom a) => a.extent
  | _ => []

/-- What has a place among all values: everything but a double or a symbol. -/
def IsPlaced : Option Value → Prop
  | some (.atom a) => a.IsPlaced
  | _ => True

instance : (v : Option Value) → Decidable (IsPlaced v)
  | some (.atom a) => inferInstanceAs (Decidable a.IsPlaced)
  | none | some (.array _) | some (.document _) => isTrue trivial

/-- The order of places: by the rank of the kind, then by what decides within it. -/
def byPlace : Option Value → Option Value → Ordering :=
  compareLex (compareOn rank?) (compareOn extent)

instance : Std.TransCmp byPlace :=
  inferInstanceAs (Std.TransCmp (compareLex (compareOn rank?) (compareOn extent)))

end Value

/-! ### Atoms -/

namespace Atom

/-- Natural numbers compare as integers do. -/
private theorem compare_natCast (m n : Nat) : compare (m : Int) (n : Int) = compare m n := by
  rw [Int.compare_eq_ite_lt, Nat.compare_eq_ite_lt]
  simp only [Int.ofNat_lt]

/-- Two lists of one number compare as the numbers do. -/
private theorem compare_singleton (m n : Int) : compare [m] [n] = compare m n := by
  rw [List.compare_cons_cons]
  exact Ordering.then_eq

/-- Texts are ordered by the numbers of their characters. -/
theorem compareText_eq (xs ys : List Char) :
    compareText xs ys =
      compare (xs.map fun c => (c.toNat : Int)) (ys.map fun c => (c.toNat : Int)) := by
  induction xs generalizing ys with
  | nil => cases ys <;> rfl
  | cons x xs ih =>
    cases ys with
    | nil => rfl
    | cons y ys =>
      rw [compareText, ih, List.map_cons, List.map_cons, List.compare_cons_cons, compare_natCast]

/-- Bytes are ordered by their numbers. -/
theorem compareBytes_eq (xs ys : List UInt8) :
    compareBytes xs ys =
      compare (xs.map fun b => (b.toNat : Int)) (ys.map fun b => (b.toNat : Int)) := by
  induction xs generalizing ys with
  | nil => cases ys <;> rfl
  | cons x xs ih =>
    cases ys with
    | nil => rfl
    | cons y ys =>
      rw [compareBytes, ih, List.map_cons, List.map_cons, List.compare_cons_cons, compare_natCast]

/-- Atoms of one rank that have places are ordered by what decides within their kind. -/
private theorem getD_compare? {a b : Atom} (ha : a.IsPlaced) (hb : b.IsPlaced)
    (h : a.rank = b.rank) :
    (a.compare? b).getD .eq = compare a.extent b.extent := by
  cases a with
  | double _ => exact ha.elim
  | symbol _ => exact ha.elim
  | int32 m | int64 m =>
    cases b with
    | int32 n | int64 n => exact (compare_singleton m.toInt n.toInt).symm
    | double _ => exact hb.elim
    | _ => cases h
  | bool x =>
    cases b with
    | bool y => exact ((compare_singleton _ _).trans (compare_natCast x.toNat y.toNat)).symm
    | _ => cases h
  | string s =>
    cases b with
    | string t => exact compareText_eq s.toList t.toList
    | symbol _ => exact hb.elim
    | _ => cases h
  | binary _ x =>
    cases b with
    | binary _ y => exact compareBytes_eq x y
    | _ => cases h
  | dateTime s =>
    cases b with
    | dateTime t => exact (compare_singleton s.toInt t.toInt).symm
    | _ => cases h
  | objectId x =>
    cases b with
    | objectId y => exact compareBytes_eq x.bytes y.bytes
    | _ => cases h
  -- Of the other kinds only null has an order, and no two nulls are told apart by it.
  | null | undefined | regex _ _ | timestamp _ _ | javascript _ | minKey | maxKey =>
    cases b <;> first | rfl | cases h

end Atom

/-! ### Values -/

namespace Value

/-- Nothing decides within the ranks that what is no atom has. -/
theorem extent_eq_nil {v : Option Value} (h : rank? v = 1 ∨ rank? v = 4 ∨ rank? v = 5) :
    extent v = [] := by
  rcases v with _ | (a | xs | d)
  · rfl
  · cases a <;> first | rfl | simp [rank?, rank, Atom.rank] at h
  · rfl
  · rfl

/-- **Values with places are ordered as their places are.** -/
theorem order_eq_byPlace {v w : Option Value} (hv : IsPlaced v) (hw : IsPlaced w) :
    order v w = byPlace v w := by
  change (compare (rank? v) (rank? w)).then _ =
    (compare (rank? v) (rank? w)).then (compare (extent v) (extent w))
  rcases hrank : compare (rank? v) (rank? w) with _ | _ | _
  · rfl
  · have hrank : rank? v = rank? w := Nat.compare_eq_eq.mp hrank
    by_cases hatoms : (∃ a, v = some (.atom a)) ∧ ∃ b, w = some (.atom b)
    · obtain ⟨⟨a, rfl⟩, b, rfl⟩ := hatoms
      exact Atom.getD_compare? hv hw hrank
    · -- Where one of them is no atom, both are of kinds without an order.
      have hunordered : rank? v = 1 ∨ rank? v = 4 ∨ rank? v = 5 := by
        rcases v with _ | (a | xs | d)
        · exact .inl rfl
        · rcases w with _ | (b | ys | e)
          · exact .inl hrank
          · exact absurd ⟨⟨a, rfl⟩, b, rfl⟩ hatoms
          · exact .inr (.inr hrank)
          · exact .inr (.inl hrank)
        · exact .inr (.inr rfl)
        · exact .inr (.inl rfl)
      rw [extent_eq_nil hunordered, extent_eq_nil (hrank ▸ hunordered)]
      rcases v with _ | (a | xs | d) <;> rcases w with _ | (b | ys | e)
      case some.atom.some.atom => exact absurd ⟨⟨a, rfl⟩, b, rfl⟩ hatoms
      all_goals rfl
  · rfl

/-- A value that is absent has the place of null. -/
theorem isPlaced_getD_null {v : Option Value} : IsPlaced (some (v.getD .null)) ↔ IsPlaced v := by
  cases v <;> exact Iff.rfl

/-- A value that is absent is ordered as null. -/
theorem order_getD_null (v w : Option Value) :
    order (some (v.getD .null)) (some (w.getD .null)) = order v w := by
  rcases v with _ | (a | xs | d) <;> rcases w with _ | (b | ys | e)
  case none.some.atom => cases b <;> rfl
  case some.atom.none => cases a <;> rfl
  all_goals rfl

end Value

/-! ### Sort keys -/

/-- An order that a direction turns is an order. -/
theorem Direction.transCmp_orient {α : Type} (o : Direction) (cmp : α → α → Ordering)
    [Std.TransCmp cmp] : Std.TransCmp fun x y => o.orient (cmp x y) := by
  cases o with
  | ascending => exact inferInstanceAs (Std.TransCmp cmp)
  | descending =>
    have hswap : (fun x y => Direction.descending.orient (cmp x y)) = fun x y => cmp y x :=
      funext fun x => funext fun y => Std.OrientedCmp.eq_swap.symm
    rw [hswap]
    exact Std.TransCmp.opposite

namespace SortKeys

/-- How two documents compare by the places of their values. -/
def byPlace : SortKeys → Document → Document → Ordering
  | [] => fun _ _ => .eq
  | (path, direction) :: keys =>
    compareLex (fun d e => direction.orient (Value.byPlace (d.read? path) (e.read? path)))
      (byPlace keys)

instance transCmp_byPlace (keys : SortKeys) : Std.TransCmp keys.byPlace := by
  induction keys with
  | nil => exact { eq_swap := rfl, isLE_trans := fun _ _ => rfl }
  | cons key keys ih =>
    have hread : Std.TransCmp fun d e : Document => Value.byPlace (d.read? key.1) (e.read? key.1) :=
      { eq_swap := Std.OrientedCmp.eq_swap, isLE_trans := Std.TransCmp.isLE_trans }
    have := key.2.transCmp_orient fun d e : Document =>
      Value.byPlace (d.read? key.1) (e.read? key.1)
    exact inferInstanceAs (Std.TransCmp (compareLex _ _))

/-- Whether the values of a document at the paths of sort keys have places. -/
def Places (keys : SortKeys) (d : Document) : Prop := ∀ key ∈ keys, Value.IsPlaced (d.read? key.1)

instance (keys : SortKeys) (d : Document) : Decidable (keys.Places d) :=
  inferInstanceAs (Decidable (∀ key ∈ keys, Value.IsPlaced (d.read? key.1)))

theorem compare_eq_byPlace {keys : SortKeys} {d e : Document} (hd : keys.Places d)
    (he : keys.Places e) : keys.compare d e = keys.byPlace d e := by
  induction keys with
  | nil => rfl
  | cons key keys ih =>
    obtain ⟨hd, hds⟩ := List.forall_mem_cons.mp hd
    obtain ⟨he, hes⟩ := List.forall_mem_cons.mp he
    rw [compare, Value.order_eq_byPlace hd he, ih hds hes]
    rfl

end SortKeys

end DocQuery
