/-!
# Stable sorting

Sorting by insertion. Each element is placed behind all earlier ones that it does not have to
precede, so elements that do not precede each other keep their order. The result holds the same
elements, whatever the relation.

Where the relation is that of a preorder of all elements, the result is in this order
(`sort_pairwise`), and the elements that are level with one of them stand in it as they stood before
(`filter_sort`). There is only one such list (`eq_of_filter_eq`), so that every other stable sort
delivers it, too (`sort_eq_mergeSort`).
-/

namespace DocQuery.StableSort

variable {α : Type}

/-- Place an element into a list that is read from its last element to its first. -/
def place (precedes : α → α → Bool) (x : α) : List α → List α
  | [] => [x]
  | y :: ys => if precedes x y then y :: place precedes x ys else x :: y :: ys

/-- Sort a list, from the left. -/
def sort (precedes : α → α → Bool) (xs : List α) : List α :=
  (xs.foldl (fun placed x => place precedes x placed) []).reverse

private theorem place_perm (precedes : α → α → Bool) (x : α) (ys : List α) :
    (place precedes x ys).Perm (x :: ys) := by
  fun_induction place precedes x ys with
  | case1 => exact .refl _
  | case2 y ys _ ih => exact (ih.cons y).trans (.swap x y ys)
  | case3 => exact .refl _

private theorem foldl_place_perm (precedes : α → α → Bool) (xs placed : List α) :
    (xs.foldl (fun placed x => place precedes x placed) placed).Perm (xs ++ placed) := by
  induction xs generalizing placed with
  | nil => exact .refl _
  | cons x xs ih =>
    refine (ih _).trans (((place_perm precedes x placed).append_left xs).trans ?_)
    exact List.perm_middle

/-- Sorting neither loses nor adds elements. -/
theorem sort_perm (precedes : α → α → Bool) (xs : List α) : (sort precedes xs).Perm xs := by
  refine (List.reverse_perm _).trans ?_
  simpa using foldl_place_perm precedes xs []

section Map

variable {β : Type} {precedes : β → β → Bool} {precedes' : α → α → Bool} (f : α → β)

private theorem place_map {x : α} {ys : List α}
    (h : ∀ y ∈ ys, precedes (f x) (f y) = precedes' x y) :
    place precedes (f x) (ys.map f) = (place precedes' x ys).map f := by
  induction ys with
  | nil => rfl
  | cons y ys ih =>
    obtain ⟨hy, hys⟩ := List.forall_mem_cons.mp h
    rw [List.map_cons, place, place, hy, ih hys]
    split <;> rfl

/-- Elements that precede each other as their images do are sorted as these are. -/
theorem sort_map {xs : List α} (h : ∀ x ∈ xs, ∀ y ∈ xs, precedes (f x) (f y) = precedes' x y) :
    sort precedes (xs.map f) = (sort precedes' xs).map f := by
  have hfold : ∀ rest placed : List α, rest ⊆ xs → placed ⊆ xs →
      (rest.map f).foldl (fun placed x => place precedes x placed) (placed.map f) =
        (rest.foldl (fun placed x => place precedes' x placed) placed).map f := by
    intro rest
    induction rest with
    | nil => exact fun _ _ _ => rfl
    | cons x rest ih =>
      intro placed hrest hplaced
      obtain ⟨hx, hrest⟩ := List.cons_subset.mp hrest
      rw [List.map_cons, List.foldl_cons, List.foldl_cons,
        place_map f fun y hy => h x hx y (hplaced hy)]
      exact ih _ hrest fun y hy =>
        List.cons_subset.mpr ⟨hx, hplaced⟩ ((place_perm precedes' x placed).subset hy)
  rw [sort, sort, List.map_reverse]
  exact congrArg List.reverse (hfold xs [] (List.Subset.refl xs) (List.nil_subset xs))

end Map

/-- Sorting looks at the relation between the elements of the list alone. -/
theorem sort_congr {precedes precedes' : α → α → Bool} {xs : List α}
    (h : ∀ x ∈ xs, ∀ y ∈ xs, precedes x y = precedes' x y) :
    sort precedes xs = sort precedes' xs := by
  have hsort : sort precedes (xs.map id) = (sort precedes' xs).map id := sort_map id h
  rwa [List.map_id, List.map_id] at hsort

/-- Elements of which none precedes another stay where they are. -/
theorem sort_eq_self {precedes : α → α → Bool} {xs : List α}
    (h : ∀ x ∈ xs, ∀ y ∈ xs, precedes x y = false) : sort precedes xs = xs := by
  have hplace : ∀ (x : α) (ys : List α), place (fun _ _ => false) x ys = x :: ys := by
    intro x ys
    cases ys <;> rfl
  have hfold : ∀ rest placed : List α,
      rest.foldl (fun placed x => place (fun _ _ => false) x placed) placed =
        rest.reverse ++ placed := by
    intro rest
    induction rest with
    | nil => exact fun _ => rfl
    | cons x rest ih =>
      intro placed
      rw [List.foldl_cons, ih, hplace, List.reverse_cons, List.append_assoc]
      rfl
  rw [sort_congr h, sort, hfold, List.append_nil, List.reverse_reverse]

/-! ### Sorting by a preorder -/

section Order

variable {cmp : α → α → Ordering} [Std.TransCmp cmp]

/-- Placing an element keeps a list in order. -/
private theorem place_pairwise (x : α) {ys : List α}
    (h : ys.Pairwise fun later earlier => (cmp earlier later).isLE) :
    (place (fun x y => cmp x y == .lt) x ys).Pairwise
      fun later earlier => (cmp earlier later).isLE := by
  induction ys with
  | nil => exact List.pairwise_singleton _ x
  | cons y ys ih =>
    obtain ⟨hy, hys⟩ := List.pairwise_cons.mp h
    rw [place]
    split
    · next hlt =>
      refine List.pairwise_cons.mpr ⟨fun e he => ?_, ih hys⟩
      rcases List.mem_cons.mp ((place_perm _ x ys).subset he) with rfl | he
      · exact Ordering.isLE_of_eq_lt (eq_of_beq hlt)
      · exact hy e he
    · next hlt =>
      have hyx : (cmp y x).isLE := by
        rw [Ordering.isLE_iff_ne_gt, Std.OrientedCmp.gt_iff_lt]
        exact fun heq => hlt (beq_iff_eq.mpr heq)
      refine List.pairwise_cons.mpr ⟨fun e he => ?_, h⟩
      rcases List.mem_cons.mp he with rfl | he
      · exact hyx
      · exact Std.TransCmp.isLE_trans (hy e he) hyx

/-- **A sorted list is in order.** -/
theorem sort_pairwise (xs : List α) :
    (sort (fun x y => cmp x y == .lt) xs).Pairwise fun x y => (cmp x y).isLE := by
  have hfold : ∀ rest placed : List α,
      placed.Pairwise (fun later earlier => (cmp earlier later).isLE) →
        (rest.foldl (fun placed x => place (fun x y => cmp x y == .lt) x placed) placed).Pairwise
          fun later earlier => (cmp earlier later).isLE := by
    intro rest
    induction rest with
    | nil => exact fun _ h => h
    | cons x rest ih => exact fun placed h => ih _ (place_pairwise x h)
  exact List.pairwise_reverse.mpr (hfold xs [] .nil)

/-- An element is placed behind those that are level with it. -/
private theorem filter_place (d x : α) (ys : List α) :
    (place (fun x y => cmp x y == .lt) x ys).filter (cmp d · == .eq) =
      (x :: ys).filter (cmp d · == .eq) := by
  induction ys with
  | nil => rfl
  | cons y ys ih =>
    rw [place]
    split
    · next hlt =>
      -- Where one element precedes another, at most one of them is level with a third.
      have hne : ¬ (cmp d x = .eq ∧ cmp d y = .eq) := by
        rintro ⟨hx, hy⟩
        rw [← Std.TransCmp.congr_left hx, hy] at hlt
        cases hlt
      rw [List.filter_cons, ih, List.filter_cons, List.filter_cons, List.filter_cons]
      by_cases hx : cmp d x = .eq
      · have hy : cmp d y ≠ .eq := fun hy => hne ⟨hx, hy⟩
        simp [hx, hy]
      · simp [hx]
    · rfl

/-- **Sorting is stable.** The elements that are level with one of them keep their order. -/
theorem filter_sort (d : α) (xs : List α) :
    (sort (fun x y => cmp x y == .lt) xs).filter (cmp d · == .eq) =
      xs.filter (cmp d · == .eq) := by
  have hfold : ∀ rest placed : List α,
      (rest.foldl (fun placed x => place (fun x y => cmp x y == .lt) x placed) placed).filter
          (cmp d · == .eq) = (rest.reverse ++ placed).filter (cmp d · == .eq) := by
    intro rest
    induction rest with
    | nil => exact fun _ => rfl
    | cons x rest ih =>
      intro placed
      rw [List.foldl_cons, ih, List.filter_append, filter_place, ← List.filter_append,
        List.reverse_cons, List.append_assoc]
      rfl
  rw [sort, List.filter_reverse, hfold, List.append_nil, ← List.filter_reverse,
    List.reverse_reverse]

/-- A list in order is known from its elements and the order of those that are level. -/
theorem eq_of_filter_eq {xs ys : List α} (hperm : xs.Perm ys)
    (hxs : xs.Pairwise fun x y => (cmp x y).isLE) (hys : ys.Pairwise fun x y => (cmp x y).isLE)
    (hlevel : ∀ d, xs.filter (cmp d · == .eq) = ys.filter (cmp d · == .eq)) : xs = ys := by
  induction xs generalizing ys with
  | nil => exact hperm.nil_eq
  | cons x xs ih =>
    rcases ys with _ | ⟨y, ys⟩
    · exact absurd hperm.symm.nil_eq (List.cons_ne_nil x xs).symm
    obtain ⟨hx, hxs'⟩ := List.pairwise_cons.mp hxs
    obtain ⟨hy, hys'⟩ := List.pairwise_cons.mp hys
    have hself : ∀ z : α, cmp z z = .eq := fun z => Std.ReflCmp.compare_self
    -- Both first elements come before all others, so they are level, and then the same.
    have hxy : (cmp x y).isLE := by
      rcases List.mem_cons.mp (hperm.symm.subset List.mem_cons_self) with rfl | hmem
      · exact Ordering.isLE_of_eq_eq (hself y)
      · exact hx y hmem
    have hyx : (cmp y x).isLE := by
      rcases List.mem_cons.mp (hperm.subset List.mem_cons_self) with rfl | hmem
      · exact Ordering.isLE_of_eq_eq (hself x)
      · exact hy x hmem
    have hfirst := hlevel x
    simp only [List.filter_cons, hself x, Std.OrientedCmp.isLE_antisymm hxy hyx,
      beq_self_eq_true, if_true] at hfirst
    obtain rfl := (List.cons.inj hfirst).1
    refine congrArg (x :: ·) (ih ((List.perm_cons x).mp hperm) hxs' hys' fun d => ?_)
    have hrest := hlevel d
    rw [List.filter_cons, List.filter_cons] at hrest
    split at hrest
    · exact (List.cons.inj hrest).2
    · exact hrest

/-- **Every stable sort delivers the same list.** Merge sort is one. -/
theorem sort_eq_mergeSort (xs : List α) :
    sort (fun x y => cmp x y == .lt) xs = xs.mergeSort fun x y => (cmp x y).isLE := by
  have htrans : ∀ x y z : α, (cmp x y).isLE → (cmp y z).isLE → (cmp x z).isLE :=
    fun _ _ _ => Std.TransCmp.isLE_trans
  have htotal : ∀ x y : α, ((cmp x y).isLE || (cmp y x).isLE) = true := by
    intro x y
    have hswap : cmp y x = (cmp x y).swap := Std.OrientedCmp.eq_swap
    rw [hswap]
    cases cmp x y <;> rfl
  have hperm := List.mergeSort_perm xs fun x y => (cmp x y).isLE
  refine eq_of_filter_eq ((sort_perm _ xs).trans hperm.symm) (sort_pairwise xs)
    (List.pairwise_mergeSort htrans htotal xs) fun d => ?_
  -- The elements level with one of them are in order as they are, so merge sort keeps them so.
  have hlevel : (xs.filter (cmp d · == .eq)).Pairwise fun x y => (cmp x y).isLE := by
    refine List.pairwise_of_forall_mem_list fun x hx y hy => ?_
    have hx : cmp d x = .eq := eq_of_beq (List.mem_filter.mp hx).2
    have hy : cmp d y = .eq := eq_of_beq (List.mem_filter.mp hy).2
    rw [← Std.TransCmp.congr_left hx, hy]
    rfl
  have hkept := (List.sublist_mergeSort htrans htotal hlevel List.filter_sublist).filter
    (cmp d · == .eq)
  simp only [List.filter_filter, Bool.and_self] at hkept
  rw [filter_sort]
  exact hkept.eq_of_length (hperm.filter _).length_eq.symm

end Order

end DocQuery.StableSort
