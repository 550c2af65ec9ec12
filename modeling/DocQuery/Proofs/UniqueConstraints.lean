import DocQuery.Proofs.IndexCreation
import DocQuery.Proofs.Replies
import Mathlib.Data.List.Perm.Subperm
import Mathlib.Data.Set.Basic

/-!
# Unique constraints and their indexes

A schema operation asks for one unique index for each constraint that demands uniqueness, under the
name of the constraint, and all constraints without a name ask for it under the same one. A store
takes the first definition of a name; a second one is passed over if it is over the same keys, and
refused otherwise.

`Database.executeSchema_unique` says what this comes to on a collection without documents and
indexes: if the constraints without a name demand the same keys, the operation succeeds and there is
an index for each constraint; if they do not, it is refused.
-/

namespace DocQuery

/-! ### Keys of an index -/

/-- A document that lists keys once each, ascending. -/
structure Document.IsAscending (d : Document) : Prop where
  nodup : d.keys.Nodup
  values : ∀ e ∈ d, e.2 = Direction.ascending.toValue

namespace Document

variable {d e : Document}

private theorem IsAscending.put (hd : d.IsAscending) (key : String) :
    (d.put key Direction.ascending.toValue).IsAscending :=
  ⟨nodup_keys_put hd.nodup, forall_put (p := fun v => v = _) hd.values key rfl⟩

theorem IsAscending.value? (hd : d.IsAscending) {key : String} (hkey : key ∈ d.keys) :
    d.value? key = some Direction.ascending.toValue := by
  rcases hv : d.value? key with _ | v
  · exact absurd hkey (value?_eq_none_iff.mp hv)
  · exact congrArg some (hd.values _ (mem_of_value? hv))

/-- Ascending keys are the same in storage when they are the same keys, in whatever order. -/
theorem same_iff_of_isAscending (hd : d.IsAscending) (he : e.IsAscending) :
    d.same e = true ↔ ∀ key, key ∈ d.keys ↔ key ∈ e.keys := by
  constructor
  · intro h
    have hsubset : d.keys ⊆ e.keys := by
      intro key hkey
      obtain ⟨w, hw, -⟩ := exists_value?_of_same h (hd.value? hkey)
      by_contra hnot
      rw [value?_eq_none_iff.mpr hnot] at hw
      cases hw
    have hlength : e.keys.length ≤ d.keys.length := by
      rw [Document.same, Value.same, Bool.and_eq_true, beq_iff_eq] at h
      rw [keys, keys, List.length_map, List.length_map, h.1]
    have hperm : d.keys.Perm e.keys :=
      (List.subperm_of_subset hd.nodup hsubset).perm_of_length_le hlength
    exact fun key => hperm.mem_iff
  · intro h
    have hperm : d.keys.Perm e.keys := (List.perm_ext_iff_of_nodup hd.nodup he.nodup).mpr h
    refine same_of_forall (by simpa [keys] using hperm.length_eq) fun entry hentry => ?_
    refine ⟨_, he.value? ((h entry.1).mp (List.mem_map_of_mem hentry)), ?_⟩
    rw [hd.values entry hentry]
    rfl

end Document

/-- The keys that fields of an index resolve to. -/
def IndexedField.resolvedKeys (fields : List IndexedField) : Set String :=
  {key | ∃ f ∈ fields, f.indexKey = .ok key}

/-- The keys that an index is over. -/
def IndexDefinition.keySet (index : IndexDefinition) : Set String := {key | key ∈ index.keys.keys}

/-- The keys of an index on fields are those that the fields resolve to, ascending. -/
private theorem IndexedField.mem_indexKeys {fields : List IndexedField} {d keys : Document}
    (h : indexKeys d fields = .ok keys) (hd : d.IsAscending) :
    keys.IsAscending ∧ ∀ key, key ∈ keys.keys ↔ key ∈ d.keys ∨ key ∈ resolvedKeys fields := by
  induction fields generalizing d with
  | nil =>
    obtain rfl := Except.ok.inj h
    exact ⟨hd, fun key => ⟨Or.inl, fun h => h.elim id nofun⟩⟩
  | cons f fs ih =>
    obtain ⟨first, hfirst, h⟩ := bind_eq_ok_iff.mp h
    obtain ⟨hascending, hkeys⟩ := ih h (hd.put first)
    refine ⟨hascending, fun key => ?_⟩
    have hresolved : key ∈ resolvedKeys (f :: fs) ↔ key = first ∨ key ∈ resolvedKeys fs := by
      rw [resolvedKeys, Set.mem_ofPred_eq, List.exists_mem_cons_iff, hfirst]
      exact or_congr_left ⟨fun h => (Except.ok.inj h).symm, fun h => h ▸ rfl⟩
    rw [hkeys, Document.mem_keys_put, hresolved, or_assoc, or_left_comm]

/-! ### Creating indexes -/

/-- Indexes are alike when they are over the same keys, and both unique or neither. -/
theorem IndexDefinition.isLike_iff {a b : IndexDefinition} (ha : a.keys.IsAscending)
    (hb : b.keys.IsAscending) : a.IsLike b ↔ a.keySet = b.keySet ∧ a.unique = b.unique := by
  rw [IsLike, Document.same_iff_of_isAscending ha hb, Set.ext_iff]
  rfl

namespace Collection

variable {name : String} {indexes : List IndexDefinition} {c c' : Collection}

/-- Creating indexes is creating the first and then the others. -/
theorem createIndexes_cons (index : IndexDefinition) :
    createIndexes name (index :: indexes) c =
      match createIndexes name [index] c with
      | (.error cause, c) => (.error cause, c)
      | (.ok (), c) => createIndexes name indexes c := by
  simp only [createIndexes]
  split
  · split <;> rfl
  · split <;> rfl

/-- **Indexes that were created** are there: the first index of each name is over the same keys as
all definitions of that name. -/
theorem exists_held_of_createIndexes
    (hascending : ∀ index ∈ c.indexes ++ indexes, index.keys.IsAscending)
    (h : createIndexes name indexes c = (.ok (), c')) :
    ∀ index ∈ indexes, ∃ held, c'.indexes.find? (·.name == index.name) = some held ∧
      held.keySet = index.keySet ∧ held.unique = index.unique := by
  rcases createIndexes_eq name indexes c with ⟨hall, heq⟩ | ⟨_, _, _, _, _, _, _, heq⟩
  · obtain rfl := (Prod.mk.inj (heq.symm.trans h)).2
    intro index hindex
    have hself : ∀ i ∈ indexes, i.IsLike i := fun i hi =>
      have hi : i.keys.IsAscending := hascending i (List.mem_append_right _ hi)
      (IndexDefinition.isLike_iff hi hi).mpr ⟨rfl, rfl⟩
    obtain ⟨held, hheld, hlike⟩ := hall.holds hself index hindex
    have hmem : held ∈ c.indexes ++ indexes :=
      (withIndexes_sublist c indexes).subset (List.mem_of_find?_eq_some hheld)
    exact ⟨held, hheld, (IndexDefinition.isLike_iff (hascending held hmem)
      (hascending index (List.mem_append_right _ hindex))).mp hlike⟩
  · cases (Prod.mk.inj (heq.symm.trans h)).1

/-- **Indexes that were refused** on a collection without documents repeat a name over other
keys. -/
theorem exists_conflict_of_createIndexes (hdocuments : c.documents = []) {cause : StoreError}
    (h : createIndexes name indexes c = (.error cause, c')) :
    ∃ held index, [held, index].Sublist (c.indexes ++ indexes) ∧ held.name = index.name ∧
      ¬ held.IsLike index ∧ cause = .indexConflict index.name := by
  rcases createIndexes_eq name indexes c with
    ⟨-, heq⟩ | ⟨before, index, behind, cause', rfl, -, hrefuses, heq⟩
  · cases (Prod.mk.inj (heq.symm.trans h)).1
  obtain rfl := Except.error.inj (Prod.mk.inj (heq.symm.trans h)).1
  rcases hrefuses with @⟨held, hheld, hlike⟩ | ⟨-, hcovered, -⟩
  · have hname : held.name = index.name := by simpa using List.find?_some hheld
    refine ⟨held, index, ?_, hname, hlike, rfl⟩
    have hbefore : [held].Sublist (c.indexes ++ before) :=
      (List.singleton_sublist.mpr (List.mem_of_find?_eq_some hheld)).trans
        (withIndexes_sublist c before)
    rw [← List.append_assoc]
    exact hbefore.append (List.singleton_sublist.mpr List.mem_cons_self)
  · -- Without documents there are none that clash.
    rw [documents_withIndexes, hdocuments] at hcovered
    cases List.append_ne_nil_of_right_ne_nil _ (List.cons_ne_nil _ _) hcovered.symm

end Collection

/-! ### Indexes of constraints -/

namespace Constraint

/-- The name that a constraint was given. -/
def givenName? : Constraint → Option String
  | .standard _ name => name
  | .custom _ => none

/-- The index that a constraint asks for, if its fields have keys. -/
def index? (c : Constraint) : Option IndexDefinition :=
  match c.uniqueness? with
  | none => none
  | some (fields, name) =>
    match IndexedField.indexKeys [] fields with
    | .error _ => none
    | .ok keys => some ⟨name, keys, true⟩

/-- A constraint that was given no name is under that of all of them. -/
private theorem name_of_uniqueness? {c : Constraint} {fields : List IndexedField} {name : String}
    (h : c.uniqueness? = some (fields, name)) : name = c.givenName?.getD unnamedIndexName := by
  unfold uniqueness? at h
  split at h <;> cases h <;> rfl

/-- An index is under the name of its constraint, unique, and over the keys of its fields. -/
private theorem index?_spec {c : Constraint} {index : IndexDefinition} (h : c.index? = some index) :
    ∃ fields, c.uniqueness? = some (fields, index.name) ∧ index.unique = true ∧
      index.keys.IsAscending ∧ index.keySet = IndexedField.resolvedKeys fields := by
  unfold index? at h
  split at h
  · cases h
  next fields name huniqueness =>
  split at h
  · cases h
  next keys hkeys =>
  obtain rfl := Option.some.inj h
  obtain ⟨hascending, hmem⟩ :=
    IndexedField.mem_indexKeys hkeys ⟨List.nodup_nil, fun _ => nofun⟩
  refine ⟨fields, huniqueness, rfl, hascending, Set.ext fun key => ?_⟩
  exact (hmem key).trans (or_iff_right List.not_mem_nil)

/-- An index is under the name that its constraint was given, if it was. -/
private theorem name_of_index? {c : Constraint} {index : IndexDefinition}
    (h : c.index? = some index) :
    index.name = c.givenName?.getD unnamedIndexName := by
  obtain ⟨fields, huniqueness, -⟩ := index?_spec h
  exact name_of_uniqueness? huniqueness

end Constraint

namespace SchemaOperation

/-- The commands of accepted constraints ask for the index of each, and each constraint that demands
uniqueness has one. -/
private theorem indexCommands_spec {schema : String} {cs : List Constraint}
    {commands : List IndexCommand} (h : indexCommands schema cs = .ok commands) :
    commands = (cs.filterMap Constraint.index?).map (fun index => ⟨schema, [index]⟩) ∧
      ∀ c ∈ cs, c.uniqueness?.isSome → c.index?.isSome := by
  induction cs generalizing commands with
  | nil =>
    obtain rfl := Except.ok.inj h
    exact ⟨rfl, nofun⟩
  | cons c cs ih =>
    rw [indexCommands] at h
    rcases huniqueness : c.uniqueness? with _ | ⟨fields, name⟩ <;> rw [huniqueness] at h
    · obtain ⟨rfl, hrest⟩ := ih h
      have hnone : c.index? = none := by rw [Constraint.index?, huniqueness]
      rw [List.filterMap_cons_none hnone]
      refine ⟨rfl, List.forall_mem_cons.mpr ⟨fun hsome => ?_, hrest⟩⟩
      rw [huniqueness] at hsome
      cases hsome
    · obtain ⟨keys, hkeys, h⟩ := bind_eq_ok_iff.mp h
      obtain ⟨others, hothers, h⟩ := bind_eq_ok_iff.mp h
      obtain rfl := Except.ok.inj h
      obtain ⟨rfl, hrest⟩ := ih hothers
      have hindex : c.index? = some ⟨name, keys, true⟩ := by
        simp only [Constraint.index?, huniqueness, hkeys]
      rw [List.filterMap_cons_some hindex]
      exact ⟨rfl, List.forall_mem_cons.mpr ⟨fun _ => hindex ▸ rfl, hrest⟩⟩

/-- An operation that is no removal asks for the indexes of its constraints. -/
private theorem exists_of_compile {o : SchemaOperation} {plan : SchemaPlan}
    (haction : o.action ≠ .delete) (h : o.compile = .ok plan) :
    ∃ commands, indexCommands o.schema o.constraints = .ok commands ∧
      plan = .createIndexes commands := by
  unfold compile at h
  split at h
  · next hdelete => exact absurd hdelete haction
  · obtain ⟨commands, hcommands, h⟩ := bind_eq_ok_iff.mp h
    exact ⟨commands, hcommands, (Except.ok.inj h).symm⟩

section Names

variable {cs : List Constraint}

/-- No name but that of the constraints without one repeats among the indexes. -/
private theorem pairwise_names (hnames : (cs.filterMap Constraint.givenName?).Nodup) :
    (cs.filterMap Constraint.index?).Pairwise fun a b =>
      a.name = b.name → a.name = Constraint.unnamedIndexName := by
  refine List.pairwise_filterMap.mpr ((List.pairwise_filterMap.mp hnames).imp ?_)
  intro c c' hdistinct a ha b hb heq
  have hname := Constraint.name_of_index? ha
  have hname' := Constraint.name_of_index? hb
  -- Two names that were given differ, so one of the indexes has a constraint without a name.
  rcases hc : c.givenName? with _ | n <;> rw [hc] at hname
  · exact hname
  rcases hc' : c'.givenName? with _ | n' <;> rw [hc'] at hname'
  · exact heq.trans hname'
  · exact absurd (hname.symm.trans (heq.trans hname')) (hdistinct n hc n' hc')

/-- An index is under the name of the constraints without one only if its constraint has none. -/
theorem name_eq_unnamed_iff (hunnamed : Constraint.unnamedIndexName ∉
    cs.filterMap Constraint.givenName?) {c : Constraint} (hc : c ∈ cs) {index : IndexDefinition}
    (h : c.index? = some index) :
    index.name = Constraint.unnamedIndexName ↔ c.givenName? = none := by
  rw [Constraint.name_of_index? h]
  rcases hname : c.givenName? with _ | n
  · exact iff_of_true rfl rfl
  · refine iff_of_false (fun heq => hunnamed ?_) nofun
    exact List.mem_filterMap.mpr ⟨c, hc, hname.trans (congrArg some heq)⟩

end Names

/-- The constraints that were given no name demand uniqueness under the same keys. -/
def UnnamedAgree (o : SchemaOperation) : Prop :=
  ∀ c ∈ o.constraints, ∀ c' ∈ o.constraints, c.givenName? = none → c'.givenName? = none →
    ∀ u u', c.uniqueness? = some u → c'.uniqueness? = some u' →
      IndexedField.resolvedKeys u.1 = IndexedField.resolvedKeys u'.1

end SchemaOperation

/-- There is a unique index over exactly the keys of the fields. -/
def Collection.HasUniqueIndex (fields : List IndexedField) (c : Collection) : Prop :=
  ∃ index ∈ c.indexes, index.unique = true ∧ index.keySet = IndexedField.resolvedKeys fields

namespace Collection

variable {o : SchemaOperation} {col : Collection}

/-- Indexes of constraints are refused over the name of those that were given none. -/
private theorem exists_unnamed_of_createIndexes
    (hnames : (o.constraints.filterMap Constraint.givenName?).Nodup) {cause : StoreError}
    (h : createIndexes o.schema (o.constraints.filterMap Constraint.index?) .empty =
      (.error cause, col)) :
    cause = .indexConflict Constraint.unnamedIndexName ∧
      ∃ c ∈ o.constraints, ∃ c' ∈ o.constraints, ∃ a b, c.index? = some a ∧ c'.index? = some b ∧
        a.name = Constraint.unnamedIndexName ∧ b.name = Constraint.unnamedIndexName ∧
        ¬ a.IsLike b := by
  obtain ⟨a, b, hsublist, hname, hunlike, rfl⟩ := exists_conflict_of_createIndexes rfl h
  have hunnamed : a.name = Constraint.unnamedIndexName :=
    List.pairwise_pair.mp ((SchemaOperation.pairwise_names hnames).sublist hsublist) hname
  obtain ⟨c, hc, ha⟩ := List.mem_filterMap.mp (hsublist.subset List.mem_cons_self)
  obtain ⟨c', hc', hb⟩ := List.mem_filterMap.mp
    (hsublist.subset (List.mem_cons_of_mem _ List.mem_cons_self))
  have hunnamed' : b.name = Constraint.unnamedIndexName := hname.symm.trans hunnamed
  exact ⟨congrArg _ hunnamed', c, hc, c', hc', a, b, ha, hb, hunnamed, hunnamed', hunlike⟩

/-- The indexes of constraints can be created when those without a name agree. -/
private theorem createIndexes_of_unnamedAgree
    (hnames : (o.constraints.filterMap Constraint.givenName?).Nodup)
    (hunnamed : Constraint.unnamedIndexName ∉ o.constraints.filterMap Constraint.givenName?)
    (hagree : o.UnnamedAgree) :
    (createIndexes o.schema (o.constraints.filterMap Constraint.index?) .empty).1 = .ok () := by
  rcases h : createIndexes o.schema (o.constraints.filterMap Constraint.index?) .empty with
    ⟨cause | ⟨⟩, col⟩
  · obtain ⟨-, c, hc, c', hc', a, b, ha, hb, hnameA, hnameB, hunlike⟩ :=
      exists_unnamed_of_createIndexes hnames h
    obtain ⟨fields, hfields, hunique, hascending, hkeys⟩ := Constraint.index?_spec ha
    obtain ⟨fields', hfields', hunique', hascending', hkeys'⟩ := Constraint.index?_spec hb
    have hsame : IndexedField.resolvedKeys fields = IndexedField.resolvedKeys fields' :=
      hagree c hc c' hc' ((SchemaOperation.name_eq_unnamed_iff hunnamed hc ha).mp hnameA)
        ((SchemaOperation.name_eq_unnamed_iff hunnamed hc' hb).mp hnameB) _ _ hfields hfields'
    exact absurd ((IndexDefinition.isLike_iff hascending hascending').mpr
      ⟨hkeys.trans (hsame.trans hkeys'.symm), hunique.trans hunique'.symm⟩) hunlike
  · rfl

section Created

variable (haccepted : ∀ c ∈ o.constraints, c.uniqueness?.isSome → c.index?.isSome)
  (h : createIndexes o.schema (o.constraints.filterMap Constraint.index?) .empty = (.ok (), col))

include haccepted h

/-- Where the indexes of constraints could be created, the first one of the name of a constraint is
unique, and over its keys. -/
private theorem exists_held_of_uniqueness? {c : Constraint} (hc : c ∈ o.constraints)
    {u : List IndexedField × String} (hu : c.uniqueness? = some u) :
    ∃ held, col.indexes.find? (·.name == u.2) = some held ∧ held.unique = true ∧
      held.keySet = IndexedField.resolvedKeys u.1 := by
  obtain ⟨index, hindex⟩ := Option.isSome_iff_exists.mp (haccepted c hc (hu ▸ rfl))
  have hascending : ∀ index ∈ o.constraints.filterMap Constraint.index?,
      index.keys.IsAscending := by
    intro index hmem
    obtain ⟨c, -, hindex⟩ := List.mem_filterMap.mp hmem
    obtain ⟨fields, -, -, hascending, -⟩ := Constraint.index?_spec hindex
    exact hascending
  obtain ⟨held, hheld, hkeys, hunique⟩ :=
    exists_held_of_createIndexes (c := .empty) hascending h index
      (List.mem_filterMap.mpr ⟨c, hc, hindex⟩)
  obtain ⟨fields, huniqueness, hindexUnique, -, hindexKeys⟩ := Constraint.index?_spec hindex
  obtain rfl := Option.some.inj (hu.symm.trans huniqueness)
  exact ⟨held, hheld, hunique.trans hindexUnique, hkeys.trans hindexKeys⟩

/-- Constraints without a name agree where their indexes could be created. -/
private theorem unnamedAgree_of_createIndexes : o.UnnamedAgree := by
  intro c hc c' hc' hname hname' ⟨fields, name⟩ ⟨fields', name'⟩ hu hu'
  obtain ⟨held, hheld, -, hkeys⟩ := exists_held_of_uniqueness? haccepted h hc hu
  obtain ⟨held', hheld', -, hkeys'⟩ := exists_held_of_uniqueness? haccepted h hc' hu'
  have hnames : name = name' := by
    rw [Constraint.name_of_uniqueness? hu, Constraint.name_of_uniqueness? hu', hname, hname']
  subst hnames
  -- Both are held under one name, and there is only one first index of a name.
  obtain rfl := Option.some.inj (hheld.symm.trans hheld')
  exact hkeys.symm.trans hkeys'

end Created

end Collection

namespace Database

variable {db : Database} {s : Server} {cat : Catalog}

/-- Creating indexes on one collection by several commands is creating them there one after
another. -/
private theorem exists_of_createEach (hcat : s.store.catalog? db.connection.handle = some cat)
    (name : String) (indexes : List IndexDefinition) :
    ∃ s' cat', db.createEach (indexes.map fun index => ⟨name, [index]⟩) s =
        ((Collection.createIndexes name indexes (cat.collection name)).1.mapError .store, s') ∧
      s'.store.catalog? db.connection.handle = some cat' ∧
      cat'.collection name = (Collection.createIndexes name indexes (cat.collection name)).2 := by
  induction indexes generalizing s cat with
  | nil => exact ⟨s, cat, rfl, hcat, rfl⟩
  | cons index indexes ih =>
    rcases hfirst : Collection.createIndexes name [index] (cat.collection name) with
      ⟨cause | ⟨⟩, c⟩
    · have hcreate : cat.createIndexes ⟨name, [index]⟩ =
          (.error cause, cat.withCollection name c) := by
        rw [Catalog.createIndexes, Catalog.modify, hfirst]
      have hcons : Collection.createIndexes name (index :: indexes) (cat.collection name) =
          (.error cause, c) := by rw [Collection.createIndexes_cons, hfirst]
      rw [List.map_cons, createEach, Connection.createIndexes_eq hcat, hcreate, hcons]
      exact ⟨_, _, rfl, (Store.catalog?_written hcat _ _).1,
        cat.collection_withCollection_self name c⟩
    · have hcreate : cat.createIndexes ⟨name, [index]⟩ = (.ok (), cat.withCollection name c) := by
        rw [Catalog.createIndexes, Catalog.modify, hfirst]
      have hcons : Collection.createIndexes name (index :: indexes) (cat.collection name) =
          Collection.createIndexes name indexes c := by rw [Collection.createIndexes_cons, hfirst]
      obtain ⟨s', cat', heach, hcat', hcollection⟩ := ih (s := { s with
        store := (s.store.record (.createIndexes ⟨name, [index]⟩)).withCatalog db.connection.handle
          (cat.withCollection name c) }) (Store.catalog?_written hcat _ _).1
      rw [Catalog.collection_withCollection_self] at heach hcollection
      rw [List.map_cons, createEach, Connection.createIndexes_eq hcat, hcreate, hcons]
      exact ⟨s', cat', heach, hcat', hcollection⟩

/-- An operation that asks for indexes is run by its commands. -/
private theorem executeSchema_of_compile {o : SchemaOperation} {commands : List IndexCommand}
    (h : o.compile = .ok (.createIndexes commands)) :
    db.executeSchema o s = db.createEach commands s := by
  rw [executeSchema, h]

/-- **The constraints of a schema operation** on a collection without documents and indexes. Where
those without a name demand the same keys, the operation succeeds and leaves a unique index over
exactly the keys of each constraint. Where they do not, it is refused over their name. -/
theorem executeSchema_unique {o : SchemaOperation} {plan : SchemaPlan}
    (hcat : s.store.catalog? db.connection.handle = some cat)
    (hempty : cat.collection o.schema = .empty) (haction : o.action ≠ .delete)
    (hplan : o.compile = .ok plan)
    (hnames : (o.constraints.filterMap Constraint.givenName?).Nodup)
    (hunnamed : Constraint.unnamedIndexName ∉ o.constraints.filterMap Constraint.givenName?) :
    (o.UnnamedAgree → ∃ s' cat', db.executeSchema o s = (.ok (), s') ∧
        s'.store.catalog? db.connection.handle = some cat' ∧
        ∀ c ∈ o.constraints, ∀ fields name, c.uniqueness? = some (fields, name) →
          (cat'.collection o.schema).HasUniqueIndex fields) ∧
      (¬ o.UnnamedAgree → (db.executeSchema o s).1 =
        .error (.store (.indexConflict Constraint.unnamedIndexName))) := by
  obtain ⟨commands, hcommands, rfl⟩ := SchemaOperation.exists_of_compile haction hplan
  obtain ⟨rfl, haccepted⟩ := SchemaOperation.indexCommands_spec hcommands
  obtain ⟨s', cat', heach, hcat', hcollection⟩ := exists_of_createEach hcat o.schema
    (o.constraints.filterMap Constraint.index?)
  rw [executeSchema_of_compile hplan]
  rw [hempty] at heach hcollection
  rcases h : Collection.createIndexes o.schema (o.constraints.filterMap Constraint.index?) .empty
    with ⟨cause | ⟨⟩, col⟩ <;> rw [h] at heach hcollection
  · refine ⟨fun hagree => ?_, fun _ => ?_⟩
    · have hok := Collection.createIndexes_of_unnamedAgree hnames hunnamed hagree
      rw [h] at hok
      cases hok
    · rw [heach, (Collection.exists_unnamed_of_createIndexes hnames h).1]
      rfl
  · have hagree := Collection.unnamedAgree_of_createIndexes haccepted h
    refine ⟨fun _ => ⟨s', cat', heach, hcat', fun c hc fields name hu => ?_⟩,
      absurd hagree⟩
    obtain ⟨held, hheld, hunique, hkeys⟩ := Collection.exists_held_of_uniqueness? haccepted h hc hu
    rw [hcollection]
    exact ⟨held, List.mem_of_find?_eq_some hheld, hunique, hkeys⟩

/-- Visits that are unique by town and day, which is demanded twice, and by ticket. -/
def ticketedVisits : SchemaOperation where
  action := .create
  schema := "visits"
  constraints := [.unique [.key (.name "town"), .key (.name "day")],
    .standard (.compositeIdentifier [.key (.name "day"), .key (.name "town")]) none,
    (Constraint.unique [.key (.name "ticket")]).named "tickets"]

/-- The two demands by town and day agree, so that the operation succeeds. -/
theorem executeSchema_unique_ticketedVisits :
    ticketedVisits.UnnamedAgree ∧ ∃ s' cat',
      (ofConnection .sound).executeSchema ticketedVisits .empty = (.ok (), s') ∧
        s'.store.catalog? .base = some cat' ∧
        ∀ c ∈ ticketedVisits.constraints, ∀ fields name, c.uniqueness? = some (fields, name) →
          (cat'.collection "visits").HasUniqueIndex fields := by
  have hkeys : ∀ c ∈ ticketedVisits.constraints, c.givenName? = none → ∀ u,
      c.uniqueness? = some u →
        IndexedField.resolvedKeys u.1 = {key | "town" = key ∨ "day" = key} := by
    intro c hc hname u hu
    simp only [ticketedVisits, List.mem_cons, List.not_mem_nil, or_false] at hc
    rcases hc with rfl | rfl | rfl
    · obtain rfl := Option.some.inj hu
      simp [IndexedField.resolvedKeys, IndexedField.indexKey, FieldKey.resolve]
    · obtain rfl := Option.some.inj hu
      simp [IndexedField.resolvedKeys, IndexedField.indexKey, FieldKey.resolve, or_comm]
    · cases hname
  have hagree : ticketedVisits.UnnamedAgree := fun c hc c' hc' hname hname' u u' hu hu' =>
    (hkeys c hc hname u hu).trans (hkeys c' hc' hname' u' hu').symm
  have hcat : Server.empty.store.catalog? (ofConnection .sound).connection.handle =
      some .empty := rfl
  exact ⟨hagree,
    (executeSchema_unique hcat rfl (by decide) rfl (by decide) (by decide)).1 hagree⟩

/-- Users that are unique by name and by email. -/
def uniqueUsers : SchemaOperation where
  action := .create
  schema := "users"
  constraints := [.unique [.key (.name "name")], .unique [.key (.name "email")]]

/-- Without names the two constraints are refused. -/
theorem executeSchema_uniqueUsers :
    (∃ plan, uniqueUsers.compile = .ok plan) ∧
      uniqueUsers.constraints.filterMap Constraint.givenName? = [] ∧
      Catalog.empty.collection "users" = .empty ∧
      ((ofConnection .sound).executeSchema uniqueUsers .empty).1 =
        .error (.store (.indexConflict Constraint.unnamedIndexName)) :=
  ⟨⟨_, rfl⟩, rfl, rfl, rfl⟩

end Database

end DocQuery
