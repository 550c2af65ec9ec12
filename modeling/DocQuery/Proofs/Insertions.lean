import DocQuery.Proofs.CollectionWrites
import DocQuery.Proofs.Uniqueness

/-!
# Insertions stop at the first duplicate

A batch of documents is inserted one by one, and each is checked against what is stored by then: the
documents that were there, and those of the batch before it. `Collection.IsDuplicate` says of a
position of the batch, without following the insertion, that the document there clashes with one of
these, and the main theorem, `Store.insert_until_duplicate`, that this decides everything: without
such a position the whole batch is stored, and otherwise the insertion fails at the first one and
leaves exactly the documents before it.

The induction over the batch goes through `Collection.isDuplicate_cons_succ`: a duplicate behind the
first document is one of the rest in the collection that already holds the first.
-/

namespace DocQuery

namespace Collection

variable {c : Collection} {batch : List Document}

/-! ### Duplicates in a batch -/

/-- The documents of a batch as they are stored, the first under the given number: one without an
identity gets the fresh one of its number as its first entry. -/
def identifiedAll (fresh : Nat → ObjectId) (n : Nat) (ds : List Document) : List Document :=
  ds.mapIdx fun i d => identified (fresh (n + i)) d

theorem identifiedAll_cons (fresh : Nat → ObjectId) (n : Nat) (d : Document)
    (ds : List Document) :
    identifiedAll fresh n (d :: ds) = identified (fresh n) d :: identifiedAll fresh (n + 1) ds := by
  have hshift : (fun i => identified (fresh (n + (i + 1)))) =
      fun i => identified (fresh (n + 1 + i)) := by
    funext i
    rw [Nat.add_right_comm n 1 i, Nat.add_assoc]
  rw [identifiedAll, List.mapIdx_cons, hshift]
  rfl

/-- What a document of a batch stands beside when it is stored: the documents that were there, and
those of the batch before it. -/
def beside (c : Collection) (batch : List Document) (k : Nat) : List Document :=
  c.documents ++ batch.take k

/-- The document at a position of a batch clashes with one that is stored before it. -/
def IsDuplicate (c : Collection) (batch : List Document) (k : Nat) : Prop :=
  ∃ d, batch[k]? = some d ∧ ∃ o ∈ c.beside batch k, Clash c.indexes o d

/-- The first position of a batch whose document clashes with one that is stored before it. -/
structure IsFirstDuplicate (c : Collection) (batch : List Document) (k : Nat) : Prop where
  isDuplicate : c.IsDuplicate batch k
  not_before : ∀ j < k, ¬ c.IsDuplicate batch j

/-- The collection with a document behind its own. -/
def withDocument (c : Collection) (d : Document) : Collection :=
  { c with documents := c.documents ++ [d] }

private theorem isDuplicate_cons_zero {d : Document} :
    c.IsDuplicate (d :: batch) 0 ↔ ∃ o ∈ c.documents, Clash c.indexes o d := by
  simp [IsDuplicate, beside]

/-- A duplicate behind the first document of a batch is one of the rest, once the first is
stored. -/
theorem isDuplicate_cons_succ {d : Document} {k : Nat} :
    c.IsDuplicate (d :: batch) (k + 1) ↔ (c.withDocument d).IsDuplicate batch k := by
  simp [IsDuplicate, beside, withDocument]

/-- The first duplicate of the rest is that of the batch where the first document is none. -/
private theorem IsFirstDuplicate.cons {d : Document} {k : Nat}
    (h : (c.withDocument d).IsFirstDuplicate batch k) (hd : ¬ c.IsDuplicate (d :: batch) 0) :
    c.IsFirstDuplicate (d :: batch) (k + 1) := by
  refine ⟨isDuplicate_cons_succ.mpr h.isDuplicate, fun j hj => ?_⟩
  cases j with
  | zero => exact hd
  | succ j =>
    rw [isDuplicate_cons_succ]
    exact h.not_before j (Nat.lt_of_succ_lt_succ hj)

/-! ### What a duplicate is refused with -/

/-- The causes that refuse a document beside others: each names the collection, an index under which
one of the others clashes with the document, and the key of the document there. -/
inductive Refuses (name : String) (indexes : List IndexDefinition) (others : List Document)
    (d : Document) : StoreError → Prop
  /-- The identity is taken. -/
  | identity {id : Value} {o : Document} (hid : d.value? idKey = some id) (ho : o ∈ others)
      (hsame : o.SameIdentity d) :
      Refuses name indexes others d (.duplicateKey name idIndexName id.text)
  /-- The key of a unique index is taken. -/
  | index {index : IndexDefinition} {o : Document} (hindex : index ∈ indexes)
      (hunique : index.unique = true) (ho : o ∈ others) (hagree : index.Agree o d) :
      Refuses name indexes others d
        (.duplicateKey name index.name (Value.array (indexKey index d)).text)

section Refused

variable {name : String} {indexes : List IndexDefinition} {others : List Document} {d : Document}
  {cause : StoreError}

private theorem refuses_of_identityConflict? (h : identityConflict? name others d = some cause) :
    Refuses name indexes others d cause := by
  have hsome : ¬ ∀ o ∈ others, ¬ o.SameIdentity d := fun hnone =>
    Option.some_ne_none cause (h.symm.trans (identityConflict?_eq_none_iff.mpr hnone))
  push Not at hsome
  obtain ⟨o, ho, hsame⟩ := hsome
  rw [identityConflict?] at h
  split at h
  · cases h
  · next id hid =>
    split at h
    · obtain rfl := Option.some.inj h
      exact .identity hid ho hsame
    · cases h

private theorem refuses_of_indexConflict? {index : IndexDefinition} (hindex : index ∈ indexes)
    (h : indexConflict? name others d index = some cause) :
    Refuses name indexes others d cause := by
  have hsome : ¬ (index.unique = true → ∀ o ∈ others, ¬ index.Agree o d) := fun hnone =>
    Option.some_ne_none cause (h.symm.trans (indexConflict?_eq_none_iff.mpr hnone))
  push Not at hsome
  obtain ⟨hunique, o, ho, hagree⟩ := hsome
  unfold indexConflict? at h
  dsimp only at h
  split at h
  · obtain rfl := Option.some.inj h
    exact .index hindex hunique ho hagree
  · cases h

/-- **What the check answers.** A document that clashes is refused with an index of the clash and
its key there. -/
theorem refuses_of_conflict? (h : conflict? name indexes others d = some cause) :
    Refuses name indexes others d cause := by
  rw [conflict?] at h
  split at h
  · next hidentity =>
    obtain rfl := Option.some.inj h
    exact refuses_of_identityConflict? hidentity
  · obtain ⟨index, hindex, hconflict⟩ := List.exists_of_findSome?_eq_some h
    exact refuses_of_indexConflict? hindex hconflict

end Refused

/-! ### The insertion of a batch -/

/-- The check passes the first document of a batch when it is no duplicate. -/
theorem conflict?_eq_none_iff_isDuplicate {name : String} {d : Document} :
    conflict? name c.indexes c.documents d = none ↔ ¬ c.IsDuplicate (d :: batch) 0 := by
  rw [conflict?_eq_none_iff, isDuplicate_cons_zero]
  push Not
  exact Iff.rfl

/-- **Inserting document by document** stores the whole batch where it has no duplicate, and
otherwise fails at the first and leaves exactly the documents before it. -/
theorem insertAll_until_duplicate (name : String) (fresh : Nat → ObjectId) (n : Nat)
    (ds : List Document) (c : Collection) :
    ((∀ k, ¬ c.IsDuplicate (identifiedAll fresh n ds) k) ∧
      insertAll name fresh n ds c = (.ok (n + ds.length),
        { c with documents := c.documents ++ identifiedAll fresh n ds })) ∨
    ∃ k d cause, c.IsFirstDuplicate (identifiedAll fresh n ds) k ∧
      (identifiedAll fresh n ds)[k]? = some d ∧
      Refuses name c.indexes (c.beside (identifiedAll fresh n ds) k) d cause ∧
      insertAll name fresh n ds c =
        (.error cause, { c with documents := c.beside (identifiedAll fresh n ds) k }) := by
  induction ds generalizing n c with
  | nil =>
    refine Or.inl ⟨fun k ⟨d, hd, _⟩ => ?_, ?_⟩
    · cases hd
    · simp [insertAll, identifiedAll]
  | cons d ds ih =>
    rw [identifiedAll_cons, insertAll]
    rcases hconflict : conflict? name c.indexes c.documents (identified (fresh n) d) with _ | cause
    · have hfirst : ¬ c.IsDuplicate
          (identified (fresh n) d :: identifiedAll fresh (n + 1) ds) 0 :=
        conflict?_eq_none_iff_isDuplicate.mp hconflict
      have hlength : n + (d :: ds).length = n + 1 + ds.length := by
        rw [List.length_cons]
        omega
      -- The rest is inserted beside the first document.
      rcases ih (n + 1) (c.withDocument (identified (fresh n) d)) with
        ⟨hnone, heq⟩ | ⟨k, e, cause, hk, he, hrefuses, heq⟩
      · refine Or.inl ⟨fun k => ?_, ?_⟩
        · cases k with
          | zero => exact hfirst
          | succ k =>
            rw [isDuplicate_cons_succ]
            exact hnone k
        · rw [hlength]
          simpa [withDocument] using heq
      · refine Or.inr ⟨k + 1, e, cause, hk.cons hfirst, he, ?_, ?_⟩
        · simpa [withDocument, beside] using hrefuses
        · simpa [withDocument, beside] using heq
    · have hfirst : c.IsDuplicate
          (identified (fresh n) d :: identifiedAll fresh (n + 1) ds) 0 := by
        by_contra hnot
        rw [conflict?_eq_none_iff_isDuplicate.mpr hnot] at hconflict
        cases hconflict
      refine Or.inr ⟨0, identified (fresh n) d, cause, ⟨hfirst, fun j hj => ?_⟩, rfl, ?_, ?_⟩
      · exact absurd hj (Nat.not_lt_zero j)
      · simpa [beside] using refuses_of_conflict? hconflict
      · simp [beside]

end Collection

namespace Store

variable {s : Store} {h : Handle} {c : Collection}

/-- **An insertion stops exactly at the first duplicate.** Where no document of the batch clashes
with one that is stored before it, the insertion acknowledges all of them, and they stand in order
behind those that were there. Otherwise it is refused with a duplicate key of the first that does,
and only the documents before that one are stored. The indexes and all other collections are as they
were. -/
theorem insert_until_duplicate (fresh : Nat → ObjectId) {command : InsertCommand}
    (hc : s.collection? h command.collection = some c) :
    ((∀ k, ¬ c.IsDuplicate (Collection.identifiedAll fresh 0 command.documents) k) ∧
      (s.insert h fresh command).1 = .ok command.documents.length ∧
      s.Writes h command.collection
        { c with documents :=
          c.documents ++ Collection.identifiedAll fresh 0 command.documents }
        (s.insert h fresh command).2) ∨
    ∃ k d cause,
      c.IsFirstDuplicate (Collection.identifiedAll fresh 0 command.documents) k ∧
      (Collection.identifiedAll fresh 0 command.documents)[k]? = some d ∧
      (s.insert h fresh command).1 = .error cause ∧
      Collection.Refuses command.collection c.indexes
        (c.documents ++ (Collection.identifiedAll fresh 0 command.documents).take k) d cause ∧
      s.Writes h command.collection
        { c with documents :=
          c.documents ++ (Collection.identifiedAll fresh 0 command.documents).take k }
        (s.insert h fresh command).2 := by
  obtain ⟨hreply, hwrites⟩ := writes_insert fresh command hc
  rw [Collection.insert] at hreply hwrites
  rcases Collection.insertAll_until_duplicate command.collection fresh 0 command.documents c with
    ⟨hnone, heq⟩ | ⟨k, d, cause, hk, hd, hrefuses, heq⟩
  · rw [heq, Nat.zero_add] at hreply
    rw [heq] at hwrites
    exact Or.inl ⟨hnone, hreply, hwrites⟩
  · rw [heq] at hreply hwrites
    exact Or.inr ⟨k, d, cause, hk, hd, hreply, hrefuses, hwrites⟩

/-- A store of one user, where users are unique by name. -/
def namedUser : Store :=
  ⟨⟨[("users", ⟨[[(idKey, .int32 1), ("name", .string "a")]],
    [⟨"names", [("name", .int32 1)], true⟩]⟩)]⟩, [], []⟩

/-- An insertion of four users, of which the second has no name, and the third has null for its
name. -/
def insertUsers : InsertCommand :=
  ⟨"users", [[("name", .string "b")], [(idKey, .int32 2)], [(idKey, .int32 3), ("name", .null)],
    [(idKey, .int32 4), ("name", .string "d")]]⟩

/-- The third user has the name of the second, and the insertion stops there. -/
theorem insert_until_duplicate_insertUsers :
    ∃ c, namedUser.collection? .base "users" = some c ∧
      c.IsFirstDuplicate (Collection.identifiedAll .ofNat 0 insertUsers.documents) 2 ∧
      (namedUser.insert .base .ofNat insertUsers).1 =
        .error (.duplicateKey "users" "names" "[null]") ∧
      namedUser.Writes .base "users"
        { c with documents := c.documents ++
          (Collection.identifiedAll .ofNat 0 insertUsers.documents).take 2 }
        (namedUser.insert .base .ofNat insertUsers).2 := by
  obtain ⟨c, hc⟩ : ∃ c, namedUser.collection? .base insertUsers.collection = some c := ⟨_, rfl⟩
  have hreply : (namedUser.insert .base .ofNat insertUsers).1 =
      .error (.duplicateKey "users" "names" "[null]") := rfl
  refine ⟨c, hc, ?_⟩
  rcases insert_until_duplicate .ofNat hc with
    ⟨-, hall, -⟩ | ⟨k, d, cause, hk, hd, hcause, -, hwrites⟩
  · rw [hreply] at hall
    cases hall
  · -- Three documents are stored, so the first duplicate is at the third place.
    have hlength : ((namedUser.insert .base .ofNat insertUsers).2.collection? .base "users").map
        (·.documents.length) = some 3 := rfl
    obtain rfl := Option.some.inj hc
    obtain rfl : k = 2 := by
      have hcollection : (namedUser.insert .base .ofNat insertUsers).2.collection? .base "users" =
          some _ := hwrites.collection_eq
      rw [hcollection, Option.map_some, List.length_append, List.length_take] at hlength
      have hadded : 1 + min k 4 = 3 := Option.some.inj hlength
      omega
    exact ⟨hk, hreply, hwrites⟩

end Store

end DocQuery
