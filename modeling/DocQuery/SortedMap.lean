/-!
# Maps sorted by key

Association lists in ascending order of their keys, each key once. Text is ordered by its
characters, which is also the order of its bytes.
-/

namespace DocQuery.SortedMap

variable {α : Type}

/-- Write a value under a key, at its place in the order. -/
def insert (key : String) (v : α) : List (String × α) → List (String × α)
  | [] => [(key, v)]
  | (k, w) :: m =>
    if key < k then (key, v) :: (k, w) :: m
    else if key = k then (key, v) :: m
    else (k, w) :: insert key v m

/-- The map of a list of entries; the last entry of a key wins. -/
def ofList (entries : List (String × α)) : List (String × α) :=
  entries.foldl (fun m e => insert e.1 e.2 m) []

/-- The value under a key. -/
def get? (key : String) : List (String × α) → Option α
  | [] => none
  | (k, v) :: m => if k = key then some v else get? key m

@[simp] theorem get?_insert_self (key : String) (v : α) (m : List (String × α)) :
    get? key (insert key v m) = some v := by
  fun_induction insert key v m with
  | case1 => rw [get?, if_pos rfl]
  | case2 => rw [get?, if_pos rfl]
  | case3 => rw [get?, if_pos rfl]
  | case4 k w m hlt hne ih => rw [get?, if_neg (Ne.symm hne), ih]

theorem get?_insert_of_ne {key other : String} (v : α) (m : List (String × α)) (h : key ≠ other) :
    get? other (insert key v m) = get? other m := by
  fun_induction insert key v m <;> simp_all [get?]

/-! ### Order -/

/-- Each key once, in ascending order. -/
def Ascending (m : List (String × α)) : Prop := m.Pairwise fun e f => e.1 < f.1

/-- Writing adds no key but its own. -/
private theorem of_mem_insert {key : String} {v : α} {m : List (String × α)} {e : String × α}
    (h : e ∈ insert key v m) : e = (key, v) ∨ e ∈ m := by
  fun_induction insert key v m <;> grind

private theorem ascending_insert (key : String) (v : α) {m : List (String × α)} (hm : Ascending m) :
    Ascending (insert key v m) := by
  induction m with
  | nil => exact List.pairwise_singleton _ _
  | cons e m ih =>
    obtain ⟨k, w⟩ := e
    obtain ⟨hfirst, hrest⟩ := List.pairwise_cons.mp hm
    rw [insert]
    split
    · next hlt =>
      refine List.pairwise_cons.mpr ⟨fun f hf => ?_, hm⟩
      rcases List.mem_cons.mp hf with rfl | hf
      · exact hlt
      · exact String.lt_trans hlt (hfirst f hf)
    · next hnot =>
      split
      · next heq =>
        subst heq
        exact List.pairwise_cons.mpr ⟨hfirst, hrest⟩
      · next hne =>
        have hlt : k < key := by grind
        refine List.pairwise_cons.mpr ⟨fun f hf => ?_, ih hrest⟩
        rcases of_mem_insert hf with rfl | hf
        · exact hlt
        · exact hfirst f hf

/-- A key beyond all others goes to the end. -/
private theorem insert_of_forall_lt {key : String} (v : α) {m : List (String × α)}
    (h : ∀ e ∈ m, e.1 < key) : insert key v m = m ++ [(key, v)] := by
  induction m with
  | nil => rfl
  | cons e m ih =>
    obtain ⟨k, w⟩ := e
    have hlt : k < key := h (k, w) List.mem_cons_self
    have hne : key ≠ k := by
      rintro rfl
      exact String.lt_irrefl key hlt
    rw [insert, if_neg (String.lt_asymm hlt), if_neg hne,
      ih fun f hf => h f (List.mem_cons_of_mem _ hf), List.cons_append]

/-- Entries that are in order make up their own map. -/
theorem ofList_of_ascending {m : List (String × α)} (hm : Ascending m) : ofList m = m := by
  have hfold : ∀ rest done : List (String × α), Ascending (done ++ rest) →
      rest.foldl (fun m e => insert e.1 e.2 m) done = done ++ rest := by
    intro rest
    induction rest with
    | nil => exact fun done _ => (List.append_nil done).symm
    | cons e rest ih =>
      intro done hdone
      have hlast : ∀ f ∈ done, f.1 < e.1 := fun f hf =>
        (List.pairwise_append.mp hdone).2.2 f hf e List.mem_cons_self
      have happend : done ++ e :: rest = done ++ [e] ++ rest := by
        rw [List.append_assoc, List.singleton_append]
      rw [List.foldl_cons, insert_of_forall_lt e.2 hlast, happend]
      exact ih _ (happend ▸ hdone)
  exact hfold m [] hm

/-- Maps are in order, whatever the order of the entries they are made from. -/
theorem ascending_ofList (entries : List (String × α)) : Ascending (ofList entries) := by
  have hfold : ∀ m : List (String × α), Ascending m →
      Ascending (entries.foldl (fun m e => insert e.1 e.2 m) m) := by
    induction entries with
    | nil => exact fun m hm => hm
    | cons e entries ih => exact fun m hm => ih _ (ascending_insert e.1 e.2 hm)
  exact hfold [] List.Pairwise.nil

end DocQuery.SortedMap
