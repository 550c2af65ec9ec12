import DocQuery.Projection
import DocQuery.Proofs.RowPaths
import Mathlib.Data.List.Basic
import Mathlib.Data.List.Induction

/-!
# Copying several paths

A projection builds its result path by path: what the document holds at the end of a path is copied
into a target that other paths have already filled. `Document.copyAll` is this for a list of paths.
What it leaves under a key depends on the paths through this key alone, by what remains of them
(`Path.tails`): nothing without such a path, the value itself if the key is one of the paths, and
otherwise a copy of the documents there along the remaining paths (`Document.value?_copyAll`).

By induction along a path, the copy holds at each of the paths what the document does
(`Document.follow?_copyAll`), provided that none of the paths leads through the end of another, and
that no array stands directly in an array. Reading goes into such an array, and copying drops it.
-/

namespace DocQuery

/-! ### Flat values -/

namespace Value

/-- Whether the value is an array. -/
def isArray : Value → Bool
  | .array _ => true
  | _ => false

mutual

/-- Whether no array stands directly in an array. -/
def isFlat : Value → Bool
  | .atom _ => true
  | .array items => isFlatItems items
  | .document entries => isFlatEntries entries

/-- Whether no item of an array is an array, and all are flat. -/
def isFlatItems : List Value → Bool
  | [] => true
  | v :: vs => !v.isArray && isFlat v && isFlatItems vs

/-- Whether all values of a document are flat. -/
def isFlatEntries : List (String × Value) → Bool
  | [] => true
  | (_, v) :: entries => isFlat v && isFlatEntries entries

end

theorem isFlat_array_iff {items : List Value} :
    isFlat (.array items) = true ↔ ∀ v ∈ items, v.isArray = false ∧ v.isFlat = true := by
  rw [isFlat]
  induction items with
  | nil => simp [isFlatItems]
  | cons v vs ih => simp [isFlatItems, ih, and_assoc]

theorem isFlat_document_iff {d : Document} :
    isFlat (.document d) = true ↔ ∀ e ∈ d, e.2.isFlat = true := by
  rw [isFlat]
  induction d with
  | nil => simp [isFlatEntries]
  | cons e d ih => simp [isFlatEntries, ih]

end Value

namespace Path

/-- Paths of which none leads through the end of another. -/
def PrefixFree (paths : List (List String)) : Prop :=
  ∀ p ∈ paths, ∀ p' ∈ paths, p <+: p' → p = p'

instance (paths : List (List String)) : Decidable (PrefixFree paths) :=
  inferInstanceAs (Decidable (∀ p ∈ paths, ∀ p' ∈ paths, p <+: p' → p = p'))

/-- What remains behind a key of the paths that lead through it. -/
def tails (key : String) (paths : List (List String)) : List (List String) :=
  paths.filterMap fun
    | [] => none
    | first :: rest => if first = key then some rest else none

theorem mem_tails {key : String} {paths : List (List String)} {rest : List String} :
    rest ∈ tails key paths ↔ key :: rest ∈ paths := by
  rw [tails, List.mem_filterMap]
  constructor
  · rintro ⟨_ | ⟨first, others⟩, hmem, h⟩
    · cases h
    · obtain ⟨rfl, rfl⟩ : first = key ∧ others = rest := by simpa using h
      exact hmem
  · exact fun h => ⟨key :: rest, h, if_pos rfl⟩

theorem tails_append_self (key : String) (paths : List (List String)) (rest : List String) :
    tails key (paths ++ [key :: rest]) = tails key paths ++ [rest] := by
  simp [tails]

private theorem tails_append_of_ne {key first : String} (h : first ≠ key)
    (paths : List (List String)) (rest : List String) :
    tails key (paths ++ [first :: rest]) = tails key paths := by
  simp [tails, h]

theorem tails_append_nil (key : String) (paths : List (List String)) :
    tails key (paths ++ [[]]) = tails key paths := by
  simp [tails]

theorem PrefixFree.tails {paths : List (List String)} (h : PrefixFree paths) (key : String) :
    PrefixFree (tails key paths) := by
  intro p hp p' hp' hprefix
  have heq : key :: p = key :: p' :=
    h _ (mem_tails.mp hp) _ (mem_tails.mp hp') (List.cons_prefix_cons.mpr ⟨rfl, hprefix⟩)
  exact (List.cons.inj heq).2

end Path

/-! ### Copies -/

namespace Document

/-- Copy what a document holds at the end of each of several paths into another. -/
def copyAll (paths : List (List String)) (target source : Document) : Document :=
  paths.foldl (fun target keys => copyAt keys target source) target

/-- The last path is copied into what the others left. -/
theorem copyAll_append (paths : List (List String)) (keys : List String)
    (target source : Document) :
    copyAll (paths ++ [keys]) target source =
      copyAt keys (copyAll paths target source) source := by
  rw [copyAll, List.foldl_append]
  rfl

theorem keepOnly_eq_copyAll (identity : Bool) (paths : List String) (d : Document) :
    keepOnly identity paths d =
      copyAll (paths.map Path.segments) (if identity then d.identityOf else []) d := by
  rw [keepOnly, copyAll, List.foldl_map]
  rfl

/-- What is copied of the value under a key along the paths that remain behind it. -/
def copyUnder (paths : List (List String)) : Value → Option Value
  | .atom _ => none
  | .array items =>
    some (.array ((items.filterMap Value.document?).map fun d => .document (copyAll paths [] d)))
  | .document d => some (.document (copyAll paths [] d))

/-- A path changes nothing under a key that it does not lead through. -/
private theorem value?_copyAt_of_ne {first key : String} (h : first ≠ key) (rest : List String)
    (target source : Document) :
    (copyAt (first :: rest) target source).value? key = target.value? key := by
  rcases rest with _ | ⟨next, rest⟩
  · rw [copyAt]
    split
    · exact value?_put_of_ne target _ h
    · rfl
  · rw [copyAt]
    · split
      · exact value?_put_of_ne target _ h
      · exact value?_put_of_ne target _ h
      · rfl
    · exact List.cons_ne_nil next rest

/-- The path of a key copies what stands under it. -/
private theorem value?_copyAt_key (key : String) (target source : Document) :
    (copyAt [key] target source).value? key =
      (source.value? key).or (target.value? key) := by
  rw [copyAt]
  rcases source.value? key with _ | v
  · rfl
  · exact value?_put_self target key v

/-- One more path through a key goes into the copy along the others. -/
theorem value?_copyAt_append {key : String} {keys : List String} (hkeys : keys ≠ [])
    {paths : List (List String)} {target source : Document}
    (h : target.value? key =
      if paths = [] then none else (source.value? key).bind (copyUnder paths)) :
    (copyAt (key :: keys) target source).value? key =
      (source.value? key).bind (copyUnder (paths ++ [keys])) := by
  rw [copyAt.eq_3 _ _ _ _ hkeys]
  rcases hv : source.value? key with _ | (a | items | inner) <;> rw [hv] at h
  · rw [h, Option.bind_none, ite_self]
    rfl
  · rw [h]
    exact ite_self none
  · -- At each position the copy goes into what the others built there.
    have hbuilt : ∀ (i : Nat) (d : Document),
        (items.filterMap Value.document?)[i]? = some d →
          builtAt (target.value? key) i = copyAll paths [] d := by
      intro i d hd
      by_cases hpaths : paths = []
      · rw [h, if_pos hpaths, hpaths]
        rfl
      · rw [h, if_neg hpaths]
        simp [builtAt, copyUnder, hd, Value.document?]
    refine (value?_put_self _ _ _).trans (congrArg (fun items => some (Value.array items)) ?_)
    refine List.ext_getElem? fun i => ?_
    rw [List.getElem?_mapIdx, List.getElem?_map]
    rcases hd : (items.filterMap Value.document?)[i]? with _ | d
    · rfl
    · rw [Option.map_some, Option.map_some, hbuilt i d hd, copyAll_append]
  · have hchild : target.child key = copyAll paths [] inner := by
      rw [child, h]
      by_cases hpaths : paths = []
      · rw [if_pos hpaths, hpaths]
        rfl
      · rw [if_neg hpaths]
        rfl
    refine (value?_put_self _ _ _).trans ?_
    rw [hchild, ← copyAll_append]
    rfl

/-- Under a key that is none of the paths there is a copy along the paths through it. -/
theorem value?_copyAll {key : String} {paths : List (List String)} (h : [key] ∉ paths)
    (source : Document) :
    (copyAll paths [] source).value? key =
      if Path.tails key paths = [] then none
      else (source.value? key).bind (copyUnder (Path.tails key paths)) := by
  -- By induction on the paths from the last, which is copied into what the others left.
  induction paths using List.reverseRecOn with
  | nil => rfl
  | append_singleton paths keys ih =>
    obtain ⟨hpaths, hkeys⟩ := not_or.mp (mt List.mem_append.mpr h)
    replace ih := ih hpaths
    rw [copyAll_append]
    rcases keys with _ | ⟨first, rest⟩
    · rw [Path.tails_append_nil]
      exact ih
    by_cases hfirst : first = key
    · subst hfirst
      have hrest : rest ≠ [] := fun hnil => hkeys (hnil ▸ List.mem_singleton_self _)
      have hne : Path.tails first paths ++ [rest] ≠ [] :=
        List.append_ne_nil_of_right_ne_nil _ (List.cons_ne_nil rest [])
      rw [Path.tails_append_self, if_neg hne]
      exact value?_copyAt_append hrest ih
    · rw [Path.tails_append_of_ne hfirst, value?_copyAt_of_ne hfirst]
      exact ih

/-- Under a key that is one of the paths there is what the document holds. -/
private theorem value?_copyAll_of_mem {key : String} {paths : List (List String)}
    (hfree : Path.PrefixFree paths) (h : [key] ∈ paths) (source : Document) :
    (copyAll paths [] source).value? key = source.value? key := by
  induction paths using List.reverseRecOn with
  | nil => cases h
  | append_singleton paths keys ih =>
    have hfree' : Path.PrefixFree paths := fun p hp p' hp' =>
      hfree p (List.mem_append_left _ hp) p' (List.mem_append_left _ hp')
    have hlast : keys ∈ paths ++ [keys] := List.mem_append_right _ (List.mem_singleton_self keys)
    rw [copyAll_append]
    by_cases hkeys : keys = [key]
    · subst hkeys
      rw [value?_copyAt_key]
      rcases hv : source.value? key with _ | v
      · -- What is not there was not copied along the others either.
        by_cases hmem : [key] ∈ paths
        · exact (ih hfree' hmem).trans hv
        · rw [Option.none_or, value?_copyAll hmem, hv, Option.bind_none, ite_self]
      · rfl
    · have hmem : [key] ∈ paths := by
        rcases List.mem_append.mp h with hmem | hmem
        · exact hmem
        · exact absurd (List.mem_singleton.mp hmem).symm hkeys
      rcases keys with _ | ⟨first, rest⟩
      · exact ih hfree' hmem
      have hfirst : first ≠ key := by
        rintro rfl
        exact hkeys (hfree [first] h _ hlast ⟨rest, rfl⟩).symm
      rw [value?_copyAt_of_ne hfirst]
      exact ih hfree' hmem

/-- **A copy along several paths** holds at each of them what the document does. -/
theorem follow?_copyAll {paths : List (List String)} (hfree : Path.PrefixFree paths)
    {keys : List String} (hmem : keys ∈ paths) (hkeys : keys ≠ []) {source : Document}
    (hflat : (Value.document source).isFlat = true) :
    (Value.document (copyAll paths [] source)).follow? keys =
      (Value.document source).follow? keys := by
  -- By induction on the path; behind its first key what remains of it is among the tails.
  induction keys generalizing paths source with
  | nil => exact absurd rfl hkeys
  | cons key rest ih =>
    rw [Value.follow?_document, Value.follow?_document]
    rcases rest with _ | ⟨next, rest⟩
    · rw [value?_copyAll_of_mem hfree hmem]
    have hkey : [key] ∉ paths := fun hkey => by
      cases hfree [key] hkey _ hmem ⟨next :: rest, rfl⟩
    have htail : next :: rest ∈ Path.tails key paths := Path.mem_tails.mpr hmem
    have hinside : ∀ d : Document, (Value.document d).isFlat = true →
        (Value.document (copyAll (Path.tails key paths) [] d)).follow? (next :: rest) =
          (Value.document d).follow? (next :: rest) :=
      fun d hd => ih (hfree.tails key) htail (List.cons_ne_nil next rest) hd
    rw [value?_copyAll hkey, if_neg (List.ne_nil_of_mem htail)]
    rcases hv : source.value? key with _ | v
    · rfl
    have hvflat : v.isFlat = true := Value.isFlat_document_iff.mp hflat _ (mem_of_value? hv)
    rcases v with a | items | inner
    · exact (Value.follow?_atom a next rest).symm
    · -- Of the items only the documents are copied, and only they hold anything at the path.
      rw [Option.bind_some, Option.bind_some, copyUnder, Option.bind_some, Value.follow?_array,
        Value.follow?_array, List.filterMap_map, List.filterMap_filterMap]
      refine congrArg (fun items => some (Value.array items))
        (List.filterMap_congr fun item hitem => ?_)
      obtain ⟨harray, hitemflat⟩ := Value.isFlat_array_iff.mp hvflat item hitem
      rcases item with a | items | d
      · exact (Value.follow?_atom a next rest).symm
      · cases harray
      · exact hinside d hitemflat
    · exact hinside inner hvflat

end Document

end DocQuery
