import DocQuery.Proofs.CopiedPaths

/-!
# What a projection shows

The leaves of a value are the atoms in it, each with the keys that lead to it (`Value.leaves`);
positions in arrays are no part of the way. What a projection shows is said by them: copying along a
path into a target adds leaves of the source behind this path, and no others
(`Document.mem_leaves_copyAt`), and so does copying along several paths after each other.

So a projection that lists a path other than the identity shows only leaves of the document, behind
the identity and behind the paths that it lists (`Document.mem_leaves_project`). A specification
that lists the identity alone is not read as a list of paths: nothing is excluded, and the whole
document is shown (`Document.project_of_identity_alone`).
-/

namespace DocQuery

/-! ### Leaves -/

namespace Value

mutual

/-- The atoms in a value, each with the keys that lead to it. -/
def leaves : Value → List (List String × Atom)
  | .atom a => [([], a)]
  | .array items => leavesOfItems items
  | .document d => leavesOfEntries d

/-- The atoms in several values. -/
def leavesOfItems : List Value → List (List String × Atom)
  | [] => []
  | v :: vs => leaves v ++ leavesOfItems vs

/-- The atoms in the entries of a document, each behind the key of its entry. -/
def leavesOfEntries : List (String × Value) → List (List String × Atom)
  | [] => []
  | (key, v) :: d => (leaves v).map (fun leaf => (key :: leaf.1, leaf.2)) ++ leavesOfEntries d

end

theorem document?_eq_some_iff {v : Value} {d : Document} :
    v.document? = some d ↔ v = .document d := by
  cases v <;> simp [document?]

variable {keys : List String} {a : Atom}

private theorem mem_leaves_array {items : List Value} {leaf : List String × Atom} :
    leaf ∈ leaves (.array items) ↔ ∃ v ∈ items, leaf ∈ v.leaves := by
  rw [leaves]
  induction items with
  | nil => simp [leavesOfItems]
  | cons v vs ih => simp [leavesOfItems, ih]

private theorem mem_leaves_document {d : Document} :
    (keys, a) ∈ leaves (.document d) ↔
      ∃ key v rest, (key, v) ∈ d ∧ (rest, a) ∈ v.leaves ∧ keys = key :: rest := by
  rw [leaves]
  induction d with
  | nil => simp [leavesOfEntries]
  | cons e d ih =>
    rw [leavesOfEntries, List.mem_append, ih, List.mem_map]
    constructor
    · rintro (⟨⟨rest, b⟩, hleaf, heq⟩ | ⟨key, v, rest, hmem, hleaf, rfl⟩)
      · obtain ⟨rfl, rfl⟩ := Prod.mk.inj heq
        exact ⟨e.1, e.2, rest, List.mem_cons_self, hleaf, rfl⟩
      · exact ⟨key, v, rest, List.mem_cons_of_mem _ hmem, hleaf, rfl⟩
    · rintro ⟨key, v, rest, hmem, hleaf, rfl⟩
      rcases List.mem_cons.mp hmem with rfl | hmem
      · exact Or.inl ⟨(rest, a), hleaf, rfl⟩
      · exact Or.inr ⟨key, v, rest, hmem, hleaf, rfl⟩

end Value

namespace Document

variable {d target source : Document} {keys rest : List String} {a : Atom}

/-- What stands under a key gives leaves behind the key. -/
private theorem mem_leaves_of_value? {key : String} {v : Value} (h : d.value? key = some v)
    (hleaf : (rest, a) ∈ v.leaves) : (key :: rest, a) ∈ (Value.document d).leaves :=
  Value.mem_leaves_document.mpr ⟨key, v, rest, mem_of_value? h, hleaf, rfl⟩

/-- A write adds the leaves of what is written, behind the key. -/
private theorem mem_leaves_put {key : String} {v : Value}
    (h : (keys, a) ∈ (Value.document (d.put key v)).leaves) :
    (keys, a) ∈ (Value.document d).leaves ∨ ∃ rest, keys = key :: rest ∧ (rest, a) ∈ v.leaves := by
  obtain ⟨other, w, rest, hmem, hleaf, rfl⟩ := Value.mem_leaves_document.mp h
  rcases mem_or_eq_of_mem_put hmem with hmem | heq
  · exact Or.inl (Value.mem_leaves_document.mpr ⟨other, w, rest, hmem, hleaf, rfl⟩)
  · obtain ⟨rfl, rfl⟩ := Prod.mk.inj heq
    exact Or.inr ⟨rest, rfl, hleaf⟩

/-- The document under a key gives leaves behind the key, if there is one. -/
private theorem mem_leaves_of_child {key : String}
    (h : (rest, a) ∈ (Value.document (d.child key)).leaves) :
    (key :: rest, a) ∈ (Value.document d).leaves := by
  unfold child at h
  split at h
  · next hvalue => exact mem_leaves_of_value? hvalue h
  · cases h

/-- What is built at a position of an array gives leaves of the array. -/
private theorem mem_leaves_of_builtAt {built : Option Value} {i : Nat}
    (h : (keys, a) ∈ (Value.document (builtAt built i)).leaves) :
    ∃ v, built = some v ∧ (keys, a) ∈ v.leaves := by
  unfold builtAt at h
  split at h
  · next items =>
    refine ⟨_, rfl, ?_⟩
    rcases hitem : items[i]? with _ | (b | inner | inner) <;> rw [hitem] at h
    · cases h
    · cases h
    · cases h
    · exact Value.mem_leaves_array.mpr ⟨_, List.mem_of_getElem? hitem, h⟩
  · cases h

/-! ### Copies -/

/-- **Copying along a path** into a target adds leaves of the source that are behind the path. -/
theorem mem_leaves_copyAt {path : List String}
    (h : (keys, a) ∈ (Value.document (copyAt path target source)).leaves) :
    (keys, a) ∈ (Value.document target).leaves ∨
      path <+: keys ∧ (keys, a) ∈ (Value.document source).leaves := by
  -- By induction along the path, with what remains of the leaf's keys behind its first.
  induction path generalizing target source keys with
  | nil => exact Or.inl h
  | cons key path ih =>
    rcases path with _ | ⟨next, path⟩
    · rw [copyAt] at h
      split at h
      · next v hv =>
        refine (mem_leaves_put h).imp_right ?_
        rintro ⟨rest, rfl, hleaf⟩
        exact ⟨⟨rest, rfl⟩, mem_leaves_of_value? hv hleaf⟩
      · exact Or.inl h
    rw [copyAt.eq_3 _ _ _ _ (List.cons_ne_nil next path)] at h
    split at h
    · next inner hinner =>
      rcases mem_leaves_put h with h | ⟨rest, rfl, hleaf⟩
      · exact Or.inl h
      refine (ih hleaf).imp mem_leaves_of_child ?_
      rintro ⟨hbegins, hleaf⟩
      exact ⟨List.cons_prefix_cons.mpr ⟨rfl, hbegins⟩, mem_leaves_of_value? hinner hleaf⟩
    · next items hitems =>
      rcases mem_leaves_put h with h | ⟨rest, rfl, hleaf⟩
      · exact Or.inl h
      obtain ⟨w, hw, hleaf⟩ := Value.mem_leaves_array.mp hleaf
      obtain ⟨i, hi, rfl⟩ := List.mem_mapIdx.mp hw
      rcases ih hleaf with hleaf | ⟨hbegins, hleaf⟩
      · obtain ⟨v, hv, hleaf⟩ := mem_leaves_of_builtAt hleaf
        exact Or.inl (mem_leaves_of_value? hv hleaf)
      · obtain ⟨item, hitem, hdocument⟩ := List.mem_filterMap.mp (List.getElem_mem hi)
        obtain rfl := Value.document?_eq_some_iff.mp hdocument
        exact Or.inr ⟨List.cons_prefix_cons.mpr ⟨rfl, hbegins⟩,
          mem_leaves_of_value? hitems (Value.mem_leaves_array.mpr ⟨_, hitem, hleaf⟩)⟩
    · exact Or.inl h

/-- Copying along several paths adds leaves of the source that are behind one of them. -/
private theorem mem_leaves_copyAll {paths : List (List String)}
    (h : (keys, a) ∈ (Value.document (copyAll paths target source)).leaves) :
    (keys, a) ∈ (Value.document target).leaves ∨
      (∃ path ∈ paths, path <+: keys) ∧ (keys, a) ∈ (Value.document source).leaves := by
  induction paths generalizing target with
  | nil => exact Or.inl h
  | cons path paths ih =>
    rcases ih h with h | ⟨⟨other, hmem, hbegins⟩, hsource⟩
    · refine (mem_leaves_copyAt h).imp_right ?_
      rintro ⟨hbegins, hsource⟩
      exact ⟨⟨path, List.mem_cons_self, hbegins⟩, hsource⟩
    · exact Or.inr ⟨⟨other, List.mem_cons_of_mem _ hmem, hbegins⟩, hsource⟩

/-! ### Projections -/

/-- The identity of a document is all that it holds apart. -/
private theorem mem_leaves_identityOf (h : (keys, a) ∈ (Value.document d.identityOf).leaves) :
    [idKey] <+: keys ∧ (keys, a) ∈ (Value.document d).leaves := by
  unfold identityOf at h
  split at h
  · next v hv =>
    obtain ⟨key, w, rest, hmem, hleaf, rfl⟩ := Value.mem_leaves_document.mp h
    obtain ⟨rfl, rfl⟩ := Prod.mk.inj (List.mem_singleton.mp hmem)
    exact ⟨⟨rest, rfl⟩, mem_leaves_of_value? hv hleaf⟩
  · cases h

variable {spec : Document}

private theorem mem_listedPaths {path : String} :
    path ∈ listedPaths spec ↔ ∃ e ∈ spec, e.1 ≠ idKey ∧ e.2.countsAsTrue = true ∧ e.1 = path := by
  simp only [listedPaths, List.mem_map, List.mem_filter, Bool.and_eq_true, bne_iff_ne, and_assoc]

/-- **A projection shows nothing that it does not list.** Where a path other than the identity is
flagged true, each leaf of the projected document is one of the document itself, behind the identity
or behind a path flagged true. -/
theorem mem_leaves_project (hlisted : ∃ e ∈ spec, e.1 ≠ idKey ∧ e.2.countsAsTrue = true)
    (h : (keys, a) ∈ (Value.document (project spec d)).leaves) :
    (keys, a) ∈ (Value.document d).leaves ∧
      ([idKey] <+: keys ∨
        ∃ e ∈ spec, e.2.countsAsTrue = true ∧ Path.segments e.1 <+: keys) := by
  obtain ⟨e, he, hother, hflag⟩ := hlisted
  have hcons : listedPaths spec ≠ [] :=
    List.ne_nil_of_mem (mem_listedPaths.mpr ⟨e, he, hother, hflag, rfl⟩)
  rw [project_eq_keepOnly hcons, keepOnly_eq_copyAll] at h
  rcases mem_leaves_copyAll h with h | ⟨⟨path, hpath, hbegins⟩, hsource⟩
  · -- The target starts with the identity, or with nothing.
    split at h
    · obtain ⟨hbegins, hsource⟩ := mem_leaves_identityOf h
      exact ⟨hsource, Or.inl hbegins⟩
    · cases h
  · obtain ⟨name, hname, rfl⟩ := List.mem_map.mp hpath
    obtain ⟨e, he, -, hflag, rfl⟩ := mem_listedPaths.mp hname
    exact ⟨hsource, Or.inr ⟨e, he, hflag, hbegins⟩⟩

/-- A specification that lists the identity alone shows the whole document. -/
theorem project_of_identity_alone
    (h : ∀ e ∈ spec, e.1 = idKey ∧ e.2.countsAsTrue = true) (d : Document) :
    project spec d = d := by
  have hlisted : listedPaths spec = [] := List.eq_nil_iff_forall_not_mem.mpr fun path hpath => by
    obtain ⟨e, he, hother, -⟩ := mem_listedPaths.mp hpath
    exact hother (h e he).1
  have hdropped : droppedPaths spec = [] := by
    rw [droppedPaths, List.map_eq_nil_iff, List.filter_eq_nil_iff]
    intro e he
    rw [(h e he).2]
    exact Bool.false_ne_true
  rw [project, hlisted, hdropped]
  rfl

/-! ### A keeper of pets -/

/-- A keeper, of whose pets the second is no document. -/
def keeper : Document :=
  [(idKey, .int32 1), ("town", .string "x"),
    ("pets", .array [.document [("name", .string "rex"), ("age", .int32 3)], .string "tom"])]

/-- A listing of the names of pets shows these, and not the ages. -/
theorem mem_leaves_project_keeper :
    (["pets", "name"], .string "rex") ∈ (Value.document keeper).leaves ∧
      ([idKey] <+: ["pets", "name"] ∨ ∃ e ∈ [("pets.name", Value.int32 1)],
        e.2.countsAsTrue = true ∧ Path.segments e.1 <+: ["pets", "name"]) ∧
      (["pets", "age"], .int32 3) ∉
        (Value.document (project [("pets.name", .int32 1)] keeper)).leaves := by
  have hlisted : ∃ e ∈ [("pets.name", Value.int32 1)], e.1 ≠ idKey ∧ e.2.countsAsTrue = true := by
    decide
  have hproject : project [("pets.name", .int32 1)] keeper =
      [(idKey, .int32 1), ("pets", .array [.document [("name", .string "rex")]])] := rfl
  have hname : (["pets", "name"], .string "rex") ∈
      (Value.document (project [("pets.name", .int32 1)] keeper)).leaves := by
    rw [hproject]
    decide
  obtain ⟨hleaf, hpath⟩ := mem_leaves_project hlisted hname
  exact ⟨hleaf, hpath, fun hage => absurd (mem_leaves_project hlisted hage).2 (by decide)⟩

/-- **A listing of the identity alone hides nothing.** It shows the town of the keeper, too. -/
theorem mem_leaves_project_identity :
    (["town"], .string "x") ∈ (Value.document (project [(idKey, .int32 1)] keeper)).leaves ∧
      ¬[idKey] <+: ["town"] ∧ ¬∃ e ∈ [(idKey, Value.int32 1)], Path.segments e.1 <+: ["town"] := by
  rw [project_of_identity_alone (by decide)]
  decide

end Document

end DocQuery
