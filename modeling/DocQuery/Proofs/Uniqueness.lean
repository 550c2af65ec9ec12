import DocQuery.Proofs.Equality
import DocQuery.Proofs.Requests
import DocQuery.Proofs.UpdateRuns
import DocQuery.Runtime.Regex.Engine
import Mathlib.Data.List.Perm.Basic

/-!
# Unique indexes hold in every reachable state

A write is checked against the documents that stand beside it (`Collection.conflict?`), and the
check passes exactly when the new document clashes with none of them
(`Collection.conflict?_eq_none_iff`). `Collection.Distinct`, that no two documents of a collection
clash, is therefore kept by every write, also by one that is refused halfway and leaves what it
wrote before: inserting appends a document that was checked against all others, updating replaces
one that was checked against all but itself, deleting only takes documents away, and a new index is
checked against every pair before it counts.

The catalogs of a store are changed by these writes alone, or copied as a whole, so the invariant
holds of the committed catalog and of every working copy after any run of requests
(`Store.unique_of_run`).
-/

namespace DocQuery

/-! ### Clashes -/

/-- The identities of two documents are equal. -/
def Document.SameIdentity (d e : Document) : Prop :=
  ∃ v w, d.value? idKey = some v ∧ e.value? idKey = some w ∧ v.equal w = true

/-- Two documents hold equal values under every key of an index, where nothing counts as null. -/
def IndexDefinition.Agree (index : IndexDefinition) (d e : Document) : Prop :=
  ∀ path ∈ index.keys.keys, ((d.read? path).getD .null).equal ((e.read? path).getD .null) = true

/-- A collection with these indexes may not hold both documents. -/
def Clash (indexes : List IndexDefinition) (d e : Document) : Prop :=
  d.SameIdentity e ∨ ∃ index ∈ indexes, index.unique = true ∧ index.Agree d e

private theorem Document.SameIdentity.symm {d e : Document} (h : d.SameIdentity e) :
    e.SameIdentity d := by
  obtain ⟨v, w, hv, hw, heq⟩ := h
  exact ⟨w, v, hw, hv, by rw [Value.equal_comm, heq]⟩

private theorem IndexDefinition.Agree.symm {index : IndexDefinition} {d e : Document}
    (h : index.Agree d e) : index.Agree e d := by
  intro path hpath
  rw [Value.equal_comm, h path hpath]

private theorem Clash.symm {indexes : List IndexDefinition} {d e : Document}
    (h : Clash indexes d e) :
    Clash indexes e d := by
  rcases h with hid | ⟨index, hmem, hunique, hagree⟩
  · exact Or.inl hid.symm
  · exact Or.inr ⟨index, hmem, hunique, hagree.symm⟩

/-- One more index adds the clashes under it. -/
theorem clash_append_singleton {indexes : List IndexDefinition} {index : IndexDefinition}
    {d e : Document} :
    Clash (indexes ++ [index]) d e ↔ Clash indexes d e ∨ Clash [index] d e := by
  simp only [Clash, List.mem_append, List.mem_singleton]
  constructor
  · rintro (hid | ⟨i, hi | rfl, hunique, hagree⟩)
    · exact Or.inl (Or.inl hid)
    · exact Or.inl (Or.inr ⟨i, hi, hunique, hagree⟩)
    · exact Or.inr (Or.inr ⟨i, rfl, hunique, hagree⟩)
  · rintro ((hid | ⟨i, hi, hunique, hagree⟩) | (hid | ⟨i, rfl, hunique, hagree⟩))
    · exact Or.inl hid
    · exact Or.inr ⟨i, Or.inl hi, hunique, hagree⟩
    · exact Or.inl hid
    · exact Or.inr ⟨i, Or.inr rfl, hunique, hagree⟩

namespace Collection

/-! ### What the check of a write refuses -/

/-- The identity check passes exactly when no other document has the same identity. -/
theorem identityConflict?_eq_none_iff {name : String} {others : List Document} {d : Document} :
    identityConflict? name others d = none ↔ ∀ o ∈ others, ¬ o.SameIdentity d := by
  unfold identityConflict?
  rcases hd : d.value? idKey with _ | id
  · simp [Document.SameIdentity, hd]
  · have hsame : ∀ o : Document, hasIdentity id o = true ↔ o.SameIdentity d := by
      intro o
      rcases ho : o.value? idKey with _ | v <;> simp [hasIdentity, Document.SameIdentity, hd, ho]
    simp only [ite_eq_right_iff, List.any_eq_true, hsame]
    grind

/-- The check of an index passes exactly when the index is not unique or no other document agrees
under it. -/
theorem indexConflict?_eq_none_iff {name : String} {others : List Document} {d : Document}
    {index : IndexDefinition} :
    indexConflict? name others d index = none ↔
      (index.unique = true → ∀ o ∈ others, ¬ index.Agree o d) := by
  have hagree : ∀ o : Document, Value.equalItems (indexKey index o) (indexKey index d) = true ↔
      index.Agree o d := fun o => Value.equalItems_map_iff _ _ _
  simp only [indexConflict?, ite_eq_right_iff, Bool.and_eq_true, List.any_eq_true, hagree]
  grind

/-- **What a check refuses.** A document passes beside others exactly when it clashes with none. -/
theorem conflict?_eq_none_iff {name : String} {indexes : List IndexDefinition}
    {others : List Document} {d : Document} :
    conflict? name indexes others d = none ↔ ∀ o ∈ others, ¬ Clash indexes o d := by
  have hsplit : (∀ o ∈ others, ¬ Clash indexes o d) ↔
      (∀ o ∈ others, ¬ o.SameIdentity d) ∧
        ∀ index ∈ indexes, index.unique = true → ∀ o ∈ others, ¬ index.Agree o d := by
    simp only [Clash]
    grind
  have hidentity : identityConflict? name others d = none ↔ ∀ o ∈ others, ¬ o.SameIdentity d :=
    identityConflict?_eq_none_iff
  rw [hsplit, ← hidentity]
  unfold conflict?
  rcases identityConflict? name others d with _ | cause
  · simp [List.findSome?_eq_none_iff, indexConflict?_eq_none_iff]
  · simp

/-! ### The invariant of a collection -/

/-- No two documents of a collection clash. -/
def Distinct (c : Collection) : Prop :=
  c.documents.Pairwise fun d e => ¬ Clash c.indexes d e

/-- A document that passes the check beside all others may be appended. -/
theorem distinct_append {c : Collection} {name : String} {d : Document} (hc : c.Distinct)
    (hd : conflict? name c.indexes c.documents d = none) :
    Distinct { c with documents := c.documents ++ [d] } := by
  rw [conflict?_eq_none_iff] at hd
  refine List.pairwise_append.mpr ⟨hc, List.pairwise_singleton _ _, fun o ho e he => ?_⟩
  rw [List.mem_singleton.mp he]
  exact hd o ho

/-- A document that passes the check beside all but one may take the place of that one. -/
private theorem distinct_set {c : Collection} {name : String} {d : Document} {i : Nat}
    (hc : c.Distinct) (hi : i < c.documents.length)
    (hd : conflict? name c.indexes (c.documents.eraseIdx i) d = none) :
    Distinct { c with documents := c.documents.set i d } := by
  rw [conflict?_eq_none_iff] at hd
  -- A clash does not depend on which document stands first, so the place of the new one is free.
  have hsymm : ∀ {e f : Document}, ¬ Clash c.indexes e f → ¬ Clash c.indexes f e :=
    fun h hfe => h hfe.symm
  have hperm : (c.documents.set i d).Perm (d :: c.documents.eraseIdx i) :=
    List.set_perm_cons_eraseIdx hi d
  refine (hperm.pairwise_iff hsymm).mpr (List.pairwise_cons.mpr ⟨fun o ho => ?_, ?_⟩)
  · exact hsymm (hd o ho)
  · exact hc.sublist (List.eraseIdx_sublist c.documents i)

/-! ### What each write keeps -/

/-- Insertions keep documents distinct, up to the one that is refused. -/
private theorem distinct_insertAll (name : String) (fresh : Nat → ObjectId) (n : Nat)
    (ds : List Document) {c : Collection} (hc : c.Distinct) :
    (insertAll name fresh n ds c).2.Distinct := by
  induction ds generalizing n c with
  | nil => exact hc
  | cons d ds ih =>
    simp only [insertAll]
    split
    · exact hc
    · next hd => exact ih (n + 1) (distinct_append hc hd)

/-- Updates keep documents distinct, up to the document at which they stop. -/
private theorem distinct_updateAll [RegexEngine] (name : String) (statements : List UpdateStatement)
    (reply : UpdateReply) {c : Collection} (hc : c.Distinct) :
    (updateAll name statements reply c).2.Distinct := by
  refine updateAll_keeps (fun _ _ i c d u hc hd _ _ hconflict => ?_) reply hc
  exact distinct_set hc (List.getElem?_eq_some_iff.mp hd).1 hconflict

/-- What a deletion leaves are documents of the collection, in their order. -/
theorem sublist_of_remaining [RegexEngine] {filter : Document} {limit : DeleteScope}
    {ds rest : List Document} (h : remaining filter limit ds = .ok rest) : rest.Sublist ds := by
  induction ds generalizing rest with
  | nil =>
    obtain rfl : [] = rest := Except.ok.inj h
    exact List.Sublist.refl _
  | cons d ds ih =>
    simp only [remaining] at h
    rcases hd : d.satisfies filter with cause | b
    · rw [hd] at h
      cases h
    · rw [hd] at h
      cases b
      · rcases htail : remaining filter limit ds with cause | left
        · rw [htail] at h
          cases h
        · rw [htail] at h
          obtain rfl : d :: left = rest := Except.ok.inj h
          exact (ih htail).cons_cons d
      · cases limit
        · obtain rfl : ds = rest := Except.ok.inj h
          exact List.sublist_cons_self d ds
        · exact (ih h).cons d

private theorem distinct_delete [RegexEngine] (filter : Document) (limit : DeleteScope)
    {c : Collection} (hc : c.Distinct) : (delete filter limit c).2.Distinct := by
  unfold delete
  split
  · exact hc
  · next ds heq => exact hc.sublist (sublist_of_remaining heq)

/-- An index that passes its check over the documents admits no clash under it between any two of
them. -/
theorem pairwise_of_coverageConflict? {name : String} {index : IndexDefinition}
    {held ds : List Document} (hheld : held.Pairwise fun d e => ¬ Clash [index] d e)
    (h : coverageConflict? name index held ds = none) :
    (held ++ ds).Pairwise fun d e => ¬ Clash [index] d e := by
  induction ds generalizing held with
  | nil => rwa [List.append_nil]
  | cons d ds ih =>
    simp only [coverageConflict?] at h
    split at h
    · cases h
    · next hd =>
      have hgrown : Distinct ⟨held ++ [d], [index]⟩ :=
        distinct_append (c := ⟨held, [index]⟩) hheld hd
      rw [List.append_cons]
      exact ih hgrown h

/-- Creating indexes keeps documents distinct, up to the index that is refused. -/
private theorem distinct_createIndexes (name : String) (indexes : List IndexDefinition)
    {c : Collection} (hc : c.Distinct) : (createIndexes name indexes c).2.Distinct := by
  induction indexes generalizing c with
  | nil => exact hc
  | cons index rest ih =>
    simp only [createIndexes]
    split
    -- An index of that name exists, and none is added.
    · split
      · exact ih hc
      · exact hc
    · split
      · exact hc
      · next hcover =>
        refine ih ?_
        have hnew := pairwise_of_coverageConflict? List.Pairwise.nil hcover
        refine hc.imp₂ (fun d e hold hadded hclash => ?_) hnew
        rcases clash_append_singleton.mp hclash with h | h
        · exact hold h
        · exact hadded h

end Collection

/-! ### Catalogs and stores -/

/-- No collection of a catalog holds two documents that clash. -/
def Catalog.Distinct (cat : Catalog) : Prop := ∀ name, (cat.collection name).Distinct

private theorem Catalog.distinct_empty : Catalog.empty.Distinct := fun _ => List.Pairwise.nil

/-- Replacing one collection by one without clashes keeps a catalog free of them. -/
private theorem Catalog.distinct_withCollection {cat : Catalog} {name : String} {c : Collection}
    (hcat : cat.Distinct) (hc : c.Distinct) : (cat.withCollection name c).Distinct :=
  forall_withCollection (p := Collection.Distinct) hcat hc

/-- Every operation leaves a catalog without clashes, whether or not it succeeds. -/
private theorem Operation.distinct_on [RegexEngine] (o : Operation) {cat : Catalog}
    (hcat : cat.Distinct) :
    (o.on cat).2.Distinct := by
  cases o with
  | find c => exact hcat
  | aggregate c => exact hcat
  | count c => exact hcat
  | insert fresh c =>
    exact Catalog.distinct_withCollection hcat (Collection.distinct_insertAll _ _ _ _ (hcat _))
  | update c =>
    exact Catalog.distinct_withCollection hcat (Collection.distinct_updateAll _ _ _ (hcat _))
  | delete c =>
    exact Catalog.distinct_withCollection hcat (Collection.distinct_delete _ _ (hcat _))
  | createIndexes c =>
    exact Catalog.distinct_withCollection hcat (Collection.distinct_createIndexes _ _ (hcat _))
  | drop name => exact Catalog.distinct_withCollection hcat List.Pairwise.nil

namespace Store

/-- No catalog that a handle can work on holds two documents that clash. -/
def Distinct (s : Store) : Prop := ∀ h cat, s.catalog? h = some cat → cat.Distinct

private theorem distinct_empty : Store.empty.Distinct := everywhere_empty Catalog.distinct_empty

/-- **One request.** Whatever is asked, on whichever handle, and whether or not it is refused, no
catalog comes to hold two documents that clash. -/
theorem distinct_perform [RegexEngine] {s : Store} (hs : s.Distinct) (r : Request) :
    (s.perform r).2.Distinct :=
  everywhere_perform hs r fun _ o _ _ hcat => o.distinct_on hcat

/-- A run of requests keeps every catalog free of clashes. -/
private theorem distinct_after [RegexEngine] {s : Store} (hs : s.Distinct) (rs : List Request) :
    (s.after rs).Distinct := by
  induction rs generalizing s with
  | nil => exact hs
  | cons r rs ih => exact ih (distinct_perform hs r)

/-- **Unique indexes hold in every reachable state.** After any run of requests to a store that was
empty, two documents at different positions of a collection, in the committed catalog or in the
working copy of an open transaction, never have equal identities and never agree under all keys of
a unique index of the collection. -/
theorem unique_of_run [RegexEngine] (rs : List Request) (h : Handle) (cat : Catalog)
    (hcat : (empty.after rs).catalog? h = some cat) (name : String) (i j : Nat) (d e : Document)
    (hij : i ≠ j) (hd : (cat.collection name).documents[i]? = some d)
    (he : (cat.collection name).documents[j]? = some e) :
    ¬ d.SameIdentity e ∧
      ∀ index ∈ (cat.collection name).indexes, index.unique = true → ¬ index.Agree d e := by
  have hdistinct := distinct_after distinct_empty rs h cat hcat name
  have hclash : ¬ Clash (cat.collection name).indexes d e := by
    obtain ⟨hi, rfl⟩ := List.getElem?_eq_some_iff.mp hd
    obtain ⟨hj, rfl⟩ := List.getElem?_eq_some_iff.mp he
    rw [Collection.Distinct, List.pairwise_iff_getElem] at hdistinct
    rcases Nat.lt_or_gt_of_ne hij with hlt | hgt
    · exact hdistinct i j hi hj hlt
    · exact fun hclash => hdistinct j i hj hi hgt hclash.symm
  exact ⟨fun hid => hclash (Or.inl hid),
    fun index hmem hunique hagree => hclash (Or.inr ⟨index, hmem, hunique, hagree⟩)⟩

/-- A run that inserts two users, makes their names unique, and in a transaction is refused a taken
identity, of the other width, before it renames the first user. -/
def renameRun : List Request :=
  [.command .base (.insert .ofNat ⟨"users",
      [[("_id", .int32 1), ("name", .string "a")], [("_id", .int32 2), ("name", .string "b")]]⟩),
    .command .base (.createIndexes ⟨"users", [⟨"unique", [("name", .int32 1)], true⟩]⟩),
    .start .base,
    .command (.transaction 0) (.insert .ofNat ⟨"users", [[("_id", .int64 1)]]⟩),
    .command (.transaction 0) (.update ⟨"users",
      [⟨[], [("$set", .document [("name", .string "c")])], false⟩]⟩)]

attribute [local instance] Runtime.engine

/-- The working copy that `renameRun` leaves, where the two users differ in identity and name. -/
theorem unique_of_renameRun :
    let index : IndexDefinition := ⟨"unique", [("name", .int32 1)], true⟩
    let d : Document := [("_id", .int32 1), ("name", .string "c")]
    let e : Document := [("_id", .int32 2), ("name", .string "b")]
    (empty.after renameRun).catalog? (.transaction 0) = some ⟨[("users", ⟨[d, e], [index]⟩)]⟩ ∧
      ¬ d.SameIdentity e ∧ ¬ index.Agree d e := by
  intro index d e
  have hcat : (empty.after renameRun).catalog? (.transaction 0) =
      some ⟨[("users", ⟨[d, e], [index]⟩)]⟩ := rfl
  obtain ⟨hid, hindex⟩ :=
    unique_of_run renameRun _ _ hcat "users" 0 1 d e Nat.zero_ne_one rfl rfl
  exact ⟨hcat, hid, hindex index (List.mem_singleton_self index) rfl⟩

end Store

end DocQuery
