import DocQuery.Proofs.CollectionWrites
import DocQuery.Proofs.Insertions
import DocQuery.Proofs.ValueParts

/-!
# Creating indexes

A command creates indexes one by one. An index whose name is taken is passed over when the one that
holds the name is like it, and refused when it is not; one whose name is free is refused when two
documents that are stored clash under it, and added otherwise (`Collection.createIndexes_step`).
`Collection.RefusesIndex` lists the causes without following the command.

The main theorem, `Store.createIndexes_until_refused`, is that a command goes up to the first index
that is refused. It leaves the documents as they are, and behind the indexes that were there exactly
those of the command before that one whose names were free. So a refused command of several indexes
may leave some of them (`Store.createIndexes_partway`), and one of a single index leaves none. After
a command that succeeded each of its indexes is there, and the command changes nothing any more,
since what a collection holds stays the first of its name (`Collection.Holds.of_prefix`).
-/

namespace DocQuery

/-! ### Indexes that are there -/

/-- What a store compares when the name of an index is taken. -/
def IndexDefinition.IsLike (a b : IndexDefinition) : Prop :=
  a.keys.same b.keys = true ∧ a.unique = b.unique

/-- An index is like itself, if its keys have no NaN for a direction. -/
theorem IndexDefinition.isLike_self {index : IndexDefinition}
    (h : (Value.document index.keys).IsRegular) : index.IsLike index :=
  ⟨Value.same_self h, rfl⟩

namespace Collection

variable {name : String} {index : IndexDefinition} {indexes : List IndexDefinition}
  {c c' : Collection} {cause : StoreError}

/-- The collection holds an index: the first one of its name is like it. -/
def Holds (c : Collection) (index : IndexDefinition) : Prop :=
  ∃ held, c.indexes.find? (·.name == index.name) = some held ∧ held.IsLike index

/-- What is added behind them does not hide the indexes of a collection. -/
theorem Holds.of_prefix (h : c.Holds index) (hleads : c.indexes <+: c'.indexes) :
    c'.Holds index := by
  obtain ⟨held, hheld, hlike⟩ := h
  exact ⟨held, hleads.find?_eq_some hheld, hlike⟩

/-- The collection with an index behind its own, unless the name is taken. -/
def withIndex (c : Collection) (index : IndexDefinition) : Collection :=
  match c.indexes.find? (·.name == index.name) with
  | some _ => c
  | none => { c with indexes := c.indexes ++ [index] }

/-- The collection with each of several indexes behind its own, unless the name is taken by then. -/
def withIndexes (c : Collection) (indexes : List IndexDefinition) : Collection :=
  indexes.foldl withIndex c

theorem withIndexes_cons (c : Collection) (index : IndexDefinition)
    (indexes : List IndexDefinition) :
    c.withIndexes (index :: indexes) = (c.withIndex index).withIndexes indexes := rfl

private theorem documents_withIndex (c : Collection) (index : IndexDefinition) :
    (c.withIndex index).documents = c.documents := by
  unfold withIndex
  split <;> rfl

theorem documents_withIndexes (c : Collection) (indexes : List IndexDefinition) :
    (c.withIndexes indexes).documents = c.documents := by
  induction indexes generalizing c with
  | nil => rfl
  | cons index indexes ih => rw [withIndexes_cons, ih, documents_withIndex]

private theorem prefix_withIndex (c : Collection) (index : IndexDefinition) :
    c.indexes <+: (c.withIndex index).indexes := by
  unfold withIndex
  split
  · exact List.prefix_rfl
  · exact List.prefix_append c.indexes [index]

/-- The indexes of a collection stay where they are. -/
private theorem prefix_withIndexes (c : Collection) (indexes : List IndexDefinition) :
    c.indexes <+: (c.withIndexes indexes).indexes := by
  induction indexes generalizing c with
  | nil => exact List.prefix_rfl
  | cons index indexes ih => exact (prefix_withIndex c index).trans (ih (c.withIndex index))

private theorem withIndex_sublist (c : Collection) (index : IndexDefinition) :
    (c.withIndex index).indexes.Sublist (c.indexes ++ [index]) := by
  unfold withIndex
  split
  · exact List.sublist_append_left c.indexes [index]
  · exact List.Sublist.refl _

/-- No other index is added than those that are given, and in their order. -/
theorem withIndexes_sublist (c : Collection) (indexes : List IndexDefinition) :
    (c.withIndexes indexes).indexes.Sublist (c.indexes ++ indexes) := by
  induction indexes generalizing c with
  | nil => exact List.sublist_append_left c.indexes []
  | cons index indexes ih =>
    rw [List.append_cons]
    exact (ih (c.withIndex index)).trans ((withIndex_sublist c index).append_right indexes)

/-! ### Indexes that are refused -/

/-- The causes that refuse an index on a collection. -/
inductive RefusesIndex (name : String) (c : Collection) (index : IndexDefinition) :
    StoreError → Prop
  /-- The first index of its name is not like it. -/
  | taken {held : IndexDefinition}
      (hheld : c.indexes.find? (·.name == index.name) = some held) (hlike : ¬ held.IsLike index) :
      RefusesIndex name c index (.indexConflict index.name)
  /-- Its name is free, and a document clashes under it with one that is stored before. -/
  | covers {before behind : List Document} {d : Document} {cause : StoreError}
      (hfree : c.indexes.find? (·.name == index.name) = none)
      (hdocuments : c.documents = before ++ d :: behind)
      (h : Refuses name [index] before d cause) : RefusesIndex name c index cause

/-- The first document that clashes with one before it decides what an index is refused with. -/
private theorem refuses_of_coverageConflict? {held ds : List Document}
    (h : coverageConflict? name index held ds = some cause) :
    ∃ before d behind, ds = before ++ d :: behind ∧
      Refuses name [index] (held ++ before) d cause := by
  induction ds generalizing held with
  | nil => cases h
  | cons d ds ih =>
    rw [coverageConflict?] at h
    split at h
    · next hconflict =>
      obtain rfl := Option.some.inj h
      exact ⟨[], d, ds, rfl, by rw [List.append_nil]; exact refuses_of_conflict? hconflict⟩
    · obtain ⟨before, e, behind, rfl, hrefuses⟩ := ih h
      exact ⟨d :: before, e, behind, rfl, by rwa [List.append_cons]⟩

/-- A document that is refused clashes with one of the others. -/
private theorem Refuses.exists_clash {indexes : List IndexDefinition} {others : List Document}
    {d : Document} (h : Refuses name indexes others d cause) : ∃ o ∈ others, Clash indexes o d := by
  cases h with
  | identity hid ho hsame => exact ⟨_, ho, Or.inl hsame⟩
  | index hindex hunique ho hagree => exact ⟨_, ho, Or.inr ⟨_, hindex, hunique, hagree⟩⟩

/-- An index is not refused when one like it holds its name. -/
private theorem not_refusesIndex_of_holds (h : c.Holds index) :
    ¬ RefusesIndex name c index cause := by
  obtain ⟨held, hheld, hlike⟩ := h
  rintro (⟨hheld', hunlike⟩ | ⟨hfree, -, -⟩)
  · obtain rfl := Option.some.inj (hheld.symm.trans hheld')
    exact hunlike hlike
  · cases hheld.symm.trans hfree

/-- Nor is it when its name is free, and no document clashes under it with one before. -/
private theorem not_refusesIndex_of_covers (hfree : c.indexes.find? (·.name == index.name) = none)
    (h : coverageConflict? name index [] c.documents = none) :
    ¬ RefusesIndex name c index cause := by
  rintro (⟨hheld, -⟩ | ⟨-, hdocuments, hrefuses⟩)
  · cases hfree.symm.trans hheld
  · obtain ⟨o, ho, hclash⟩ := hrefuses.exists_clash
    have hpairwise := pairwise_of_coverageConflict? List.Pairwise.nil h
    rw [List.nil_append, hdocuments] at hpairwise
    exact (List.pairwise_append.mp hpairwise).2.2 o ho _ List.mem_cons_self hclash

/-! ### Running a command -/

/-- **One index.** It is refused and nothing changes, or the command goes on with the collection
that holds it. -/
theorem createIndexes_step (name : String) (index : IndexDefinition)
    (indexes : List IndexDefinition) (c : Collection) :
    ((∀ cause, ¬ RefusesIndex name c index cause) ∧
        createIndexes name (index :: indexes) c = createIndexes name indexes (c.withIndex index)) ∨
      ∃ cause, RefusesIndex name c index cause ∧
        createIndexes name (index :: indexes) c = (.error cause, c) := by
  rw [createIndexes, withIndex]
  rcases hheld : c.indexes.find? (·.name == index.name) with _ | held <;> rw [hheld]
  · rcases hcover : coverageConflict? name index [] c.documents with _ | cause
    · exact Or.inl ⟨fun cause => not_refusesIndex_of_covers hheld hcover, rfl⟩
    · obtain ⟨before, d, behind, hdocuments, hrefuses⟩ := refuses_of_coverageConflict? hcover
      exact Or.inr ⟨cause, .covers hheld hdocuments hrefuses, rfl⟩
  · by_cases hlike : held.IsLike index
    · refine Or.inl ⟨fun cause => not_refusesIndex_of_holds ⟨held, hheld, hlike⟩, if_pos ?_⟩
      rw [hlike.1, hlike.2, beq_self_eq_true]
      rfl
    · refine Or.inr ⟨.indexConflict index.name, .taken hheld hlike, if_neg fun h => hlike ?_⟩
      rwa [Bool.and_eq_true, beq_iff_eq] at h

/-- No index of a command is refused on the collection with those before it. -/
def AcceptsAll (name : String) (c : Collection) (indexes : List IndexDefinition) : Prop :=
  ∀ before index behind cause, indexes = before ++ index :: behind →
    ¬ RefusesIndex name (c.withIndexes before) index cause

private theorem AcceptsAll.cons (hindex : ∀ cause, ¬ RefusesIndex name c index cause)
    (h : AcceptsAll name (c.withIndex index) indexes) :
    AcceptsAll name c (index :: indexes) := by
  intro before other behind cause heq
  rcases before with _ | ⟨first, before⟩
  · obtain rfl := (List.cons.inj heq).1
    exact hindex cause
  · obtain ⟨rfl, hrest⟩ := List.cons.inj heq
    exact h before other behind cause hrest

private theorem AcceptsAll.tail (h : AcceptsAll name c (index :: indexes)) :
    AcceptsAll name (c.withIndex index) indexes :=
  fun before other behind cause heq =>
    h (index :: before) other behind cause (congrArg (index :: ·) heq)

/-- **Several indexes** are all accepted and added, or the command is refused at the first that is
not and has added those before it. -/
theorem createIndexes_eq (name : String) (indexes : List IndexDefinition) (c : Collection) :
    (AcceptsAll name c indexes ∧
        createIndexes name indexes c = (.ok (), c.withIndexes indexes)) ∨
      ∃ before index behind cause, indexes = before ++ index :: behind ∧
        AcceptsAll name c before ∧ RefusesIndex name (c.withIndexes before) index cause ∧
        createIndexes name indexes c = (.error cause, c.withIndexes before) := by
  have hnil : ∀ c : Collection, AcceptsAll name c [] := fun c before index behind cause heq => by
    simp at heq
  induction indexes generalizing c with
  | nil => exact Or.inl ⟨hnil c, rfl⟩
  | cons index indexes ih =>
    rcases createIndexes_step name index indexes c with
      ⟨haccepted, hstep⟩ | ⟨cause, hrefuses, hstep⟩ <;> rw [hstep]
    · rcases ih (c.withIndex index) with
        ⟨hall, heq⟩ | ⟨before, other, behind, cause, rfl, hall, hrefuses, heq⟩
      · exact Or.inl ⟨.cons haccepted hall, heq⟩
      · exact Or.inr ⟨index :: before, other, behind, cause, rfl, .cons haccepted hall, hrefuses,
          heq⟩
    · exact Or.inr ⟨[], index, indexes, cause, rfl, hnil c, hrefuses, rfl⟩

/-- An index that is accepted is held by the collection with it. -/
private theorem holds_withIndex (hself : index.IsLike index)
    (h : ∀ cause, ¬ RefusesIndex name c index cause) : (c.withIndex index).Holds index := by
  rw [withIndex]
  rcases hheld : c.indexes.find? (·.name == index.name) with _ | held <;> rw [hheld]
  · refine ⟨index, ?_, hself⟩
    rw [List.find?_append, hheld]
    simp
  · have hlike : held.IsLike index := by
      by_contra hunlike
      exact h _ (.taken hheld hunlike)
    exact ⟨held, hheld, hlike⟩

/-- The indexes of a command that is accepted are held afterwards. -/
theorem AcceptsAll.holds (h : AcceptsAll name c indexes)
    (hself : ∀ index ∈ indexes, index.IsLike index) :
    ∀ index ∈ indexes, (c.withIndexes indexes).Holds index := by
  induction indexes generalizing c with
  | nil => nofun
  | cons index indexes ih =>
    obtain ⟨hindex, hindexes⟩ := List.forall_mem_cons.mp hself
    refine List.forall_mem_cons.mpr ⟨?_, ih h.tail hindexes⟩
    have hadded : (c.withIndex index).Holds index :=
      holds_withIndex hindex fun cause => h [] index indexes cause rfl
    exact hadded.of_prefix (prefix_withIndexes _ indexes)

/-- Indexes that a collection holds can be created again, and nothing changes. -/
private theorem createIndexes_of_holds (h : ∀ index ∈ indexes, c.Holds index) :
    createIndexes name indexes c = (.ok (), c) := by
  induction indexes with
  | nil => rfl
  | cons index indexes ih =>
    obtain ⟨hindex, hindexes⟩ := List.forall_mem_cons.mp h
    rcases createIndexes_step name index indexes c with ⟨-, hstep⟩ | ⟨cause, hrefuses, -⟩
    · obtain ⟨held, hheld, -⟩ := hindex
      rw [hstep, withIndex, hheld]
      exact ih hindexes
    · exact absurd hrefuses (not_refusesIndex_of_holds hindex)

end Collection

namespace Store

variable {s : Store} {h : Handle} {c : Collection}

/-- **Index creation goes up to the first index that is refused.** Where none is, the command
succeeds and adds what is not there; when no key is given a NaN for a direction, the collection
then holds each of its indexes, and the same command succeeds again and changes nothing. Otherwise
the command is refused with the cause of the first, and those before it stay. The documents, the
indexes that were there and all other collections are as they were. -/
theorem createIndexes_until_refused {command : IndexCommand}
    (hc : s.collection? h command.collection = some c) :
    (Collection.AcceptsAll command.collection c command.indexes ∧
      (s.createIndexes h command).1 = .ok () ∧
      s.Writes h command.collection (c.withIndexes command.indexes)
        (s.createIndexes h command).2 ∧
      ((∀ index ∈ command.indexes, (Value.document index.keys).IsRegular) →
        (∀ index ∈ command.indexes, (c.withIndexes command.indexes).Holds index) ∧
        ((s.createIndexes h command).2.createIndexes h command).1 = .ok () ∧
        (s.createIndexes h command).2.Writes h command.collection (c.withIndexes command.indexes)
          ((s.createIndexes h command).2.createIndexes h command).2)) ∨
    ∃ before index behind cause, command.indexes = before ++ index :: behind ∧
      Collection.AcceptsAll command.collection c before ∧
      Collection.RefusesIndex command.collection (c.withIndexes before) index cause ∧
      (s.createIndexes h command).1 = .error cause ∧
      s.Writes h command.collection (c.withIndexes before) (s.createIndexes h command).2 := by
  obtain ⟨hreply, hwrites⟩ := writes_createIndexes command hc
  rcases Collection.createIndexes_eq command.collection command.indexes c with
    ⟨hall, heq⟩ | ⟨before, index, behind, cause, hindexes, hall, hrefuses, heq⟩
  · rw [heq] at hreply hwrites
    refine Or.inl ⟨hall, hreply, hwrites, fun hregular => ?_⟩
    have hholds := hall.holds fun index hindex =>
      IndexDefinition.isLike_self (hregular index hindex)
    obtain ⟨hagain, hwritesAgain⟩ := writes_createIndexes command hwrites.collection_eq
    rw [Collection.createIndexes_of_holds hholds] at hagain hwritesAgain
    exact ⟨hholds, hagain, hwritesAgain⟩
  · rw [heq] at hreply hwrites
    exact Or.inr ⟨before, index, behind, cause, hindexes, hall, hrefuses, hreply, hwrites⟩

/-- A store of two users of one town. -/
def townUsers : Store :=
  ⟨⟨[("users", ⟨[[(idKey, .int32 1), ("name", .string "a"), ("town", .string "x")],
    [(idKey, .int32 2), ("name", .string "b"), ("town", .string "x")]], []⟩)]⟩, [], []⟩

/-- An index on names and towns, one on towns that need not be unique, and the first one again, with
its keys in another order. -/
def indexUsers : IndexCommand :=
  ⟨"users", [⟨"names", [("name", .int32 1), ("town", .int32 1)], true⟩,
    ⟨"towns", [("town", .int32 1)], false⟩,
    ⟨"names", [("town", .int32 1), ("name", .int32 1)], true⟩]⟩

/-- Two indexes are added, which stand for all three, and nothing is left to do. -/
theorem createIndexes_until_refused_indexUsers :
    (∀ index ∈ indexUsers.indexes, (Value.document index.keys).IsRegular) ∧
      ∃ c, townUsers.Writes .base "users" c (townUsers.createIndexes .base indexUsers).2 ∧
        c.indexes = indexUsers.indexes.take 2 ∧ (∀ index ∈ indexUsers.indexes, c.Holds index) ∧
        ((townUsers.createIndexes .base indexUsers).2.createIndexes .base indexUsers).1 =
          .ok () := by
  have hregular : ∀ index ∈ indexUsers.indexes, (Value.document index.keys).IsRegular := by decide
  obtain ⟨c, hc⟩ : ∃ c, townUsers.collection? .base indexUsers.collection = some c := ⟨_, rfl⟩
  have hreply : (townUsers.createIndexes .base indexUsers).1 = .ok () := rfl
  rcases createIndexes_until_refused hc with
    ⟨-, -, hwrites, hagain⟩ | ⟨_, _, _, _, _, _, _, hcause, _⟩
  · obtain ⟨hholds, hrepeated, -⟩ := hagain hregular
    obtain rfl := Option.some.inj hc
    exact ⟨hregular, _, hwrites, rfl, hholds, hrepeated⟩
  · cases hreply.symm.trans hcause

/-- An index on names and one on towns, both unique. -/
def indexTowns : IndexCommand :=
  ⟨"users", [⟨"names", [("name", .int32 1)], true⟩, ⟨"towns", [("town", .int32 1)], true⟩]⟩

/-- **A refused command may leave indexes.** The users are of one town, so that the second index is
refused, but the first one is there afterwards. -/
theorem createIndexes_partway :
    (townUsers.createIndexes .base indexTowns).1 =
        .error (.duplicateKey "users" "towns" "[\"x\"]") ∧
      (townUsers.collection? .base "users").map (·.indexes) = some [] ∧
      ((townUsers.createIndexes .base indexTowns).2.collection? .base "users").map (·.indexes) =
        some [⟨"names", [("name", .int32 1)], true⟩] :=
  ⟨rfl, rfl, rfl⟩

end Store

end DocQuery
