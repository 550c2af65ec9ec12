import DocQuery.Proofs.Insertions
import DocQuery.Proofs.UpdatedDocuments
import DocQuery.Runtime.Regex.Engine

/-!
# Updates change exactly their targets

A statement of an update is about the documents that satisfy its filter, or about the first of them
(`UpdateStatement.targetsIn`). It replaces each of them, in the order of the collection, by what its
update makes of it, unless this is the same in storage (`Document.overwrittenBy`), and it stops at
the first that it cannot replace.

The main theorem, `Store.update_targets`, says that this is all: an update that succeeds has
replaced every target and counts them, and one that fails has replaced exactly the targets before
the one it names; nothing else has changed. The loop over the positions is followed by a lemma for a
step (`Collection.updateAt_of_getElem?`) and one for a run (`Collection.updateEach_targets`), which
have `UpdatedAt` for their invariant.
-/

namespace DocQuery

/-! ### Targets -/

namespace Document

/-- Whether a document satisfies a query that can be decided on it. -/
def isSelectedBy [RegexEngine] (d query : Document) : Bool :=
  match d.satisfies query with
  | .ok b => b
  | .error _ => false

/-- A query selects from documents if it can be decided on each of them. -/
theorem selectFrom_eq_ok_iff [RegexEngine] {query : Document} {ds found : List Document} :
    selectFrom query ds = .ok found ↔
      (∀ d ∈ ds, ∃ b, d.satisfies query = .ok b) ∧ found = ds.filter (·.isSelectedBy query) := by
  induction ds generalizing found with
  | nil => exact ⟨fun h => ⟨nofun, (Except.ok.inj h).symm⟩, fun h => h.2 ▸ rfl⟩
  | cons d ds ih =>
    rw [selectFrom, bind_eq_ok_iff, List.forall_mem_cons, and_assoc, List.filter_cons, isSelectedBy]
    constructor
    · rintro ⟨b, hb, h⟩
      obtain ⟨rest, hrest, h⟩ := bind_eq_ok_iff.mp h
      obtain ⟨hds, rfl⟩ := ih.mp hrest
      obtain rfl := Except.ok.inj h
      exact ⟨⟨b, hb⟩, hds, by rw [hb]⟩
    · rintro ⟨⟨b, hb⟩, hds, rfl⟩
      refine ⟨b, hb, bind_eq_ok_iff.mpr ⟨_, ih.mpr ⟨hds, rfl⟩, ?_⟩⟩
      rw [hb]
      rfl

/-- The positions of the documents that satisfy a query, the first position being the given one. -/
def selectedPositions [RegexEngine] (query : Document) (n : Nat) (ds : List Document) : List Nat :=
  ((ds.zipIdx n).filter fun e => e.1.isSelectedBy query).map (·.2)

theorem selectedPositions_cons [RegexEngine] (query : Document) (n : Nat) (d : Document)
    (ds : List Document) :
    selectedPositions query n (d :: ds) =
      if d.isSelectedBy query then n :: selectedPositions query (n + 1) ds
      else selectedPositions query (n + 1) ds := by
  rw [selectedPositions, List.zipIdx_cons, List.filter_cons]
  split <;> rfl

/-- What stands in place of a document of which an update made another one: that one, unless the two
are the same in storage. -/
def overwrittenBy (d u : Document) : Document := if u.same d then d else u

/-- Whether an update makes another document of a document, which is not the same in storage. -/
def isChangedBy (d update : Document) : Bool :=
  match d.updatedBy update with
  | .ok u => !u.same d
  | .error _ => false

end Document

/-- The positions of the documents that a statement is about: those of all documents that satisfy
its filter or, unless it is for many, that of the first. -/
def UpdateStatement.targetsIn [RegexEngine] (statement : UpdateStatement) (ds : List Document) :
    List Nat :=
  if statement.multi then Document.selectedPositions statement.filter 0 ds
  else (Document.selectedPositions statement.filter 0 ds).take 1

/-- Documents before and after an update at several positions: there each is overwritten by what the
update makes of it, and elsewhere they are as they were. -/
structure UpdatedAt (update : Document) (positions : List Nat) (ds es : List Document) : Prop where
  length_eq : es.length = ds.length
  kept : ∀ i ∉ positions, es[i]? = ds[i]?
  updated : ∀ i ∈ positions, ∃ d u, ds[i]? = some d ∧ d.updatedBy update = .ok u ∧
    es[i]? = some (d.overwrittenBy u)

namespace UpdatedAt

variable {update : Document} {positions : List Nat} {ds es : List Document}

private theorem nil (update : Document) (ds : List Document) : UpdatedAt update [] ds ds :=
  ⟨rfl, fun _ _ => rfl, fun _ hi => absurd hi List.not_mem_nil⟩

/-- An update at one position, and then at others. -/
private theorem cons {i : Nat} {d u : Document} (hd : ds[i]? = some d)
    (hu : d.updatedBy update = .ok u) (hi : i ∉ positions)
    (h : UpdatedAt update positions (ds.set i (d.overwrittenBy u)) es) :
    UpdatedAt update (i :: positions) ds es := by
  have hlt : i < ds.length := (List.getElem?_eq_some_iff.mp hd).1
  refine ⟨by rw [h.length_eq, List.length_set], fun j hj => ?_, fun j hj => ?_⟩
  · obtain ⟨hne, hj⟩ := List.ne_and_not_mem_of_not_mem_cons hj
    rw [h.kept j hj, List.getElem?_set_ne (Ne.symm hne)]
  · rcases List.mem_cons.mp hj with rfl | hj
    · exact ⟨d, u, hd, hu, by rw [h.kept j hi, List.getElem?_set_self hlt]⟩
    · have hne : i ≠ j := (ne_of_mem_of_not_mem hj hi).symm
      obtain ⟨d', u', hd', hu', he⟩ := h.updated j hj
      rw [List.getElem?_set_ne hne] at hd'
      exact ⟨d', u', hd', hu', he⟩

end UpdatedAt

namespace Collection

/-- The positions that a statement updates are its targets, where its filter can be decided. -/
theorem targets_eq [RegexEngine] {statement : UpdateStatement} {n : Nat} {ds : List Document}
    (h : ∀ d ∈ ds, ∃ b, d.satisfies statement.filter = .ok b) :
    targets statement n ds =
      .ok (if statement.multi then Document.selectedPositions statement.filter n ds
        else (Document.selectedPositions statement.filter n ds).take 1) := by
  induction ds generalizing n with
  | nil => simp [targets, Document.selectedPositions]
  | cons d ds ih =>
    obtain ⟨⟨b, hb⟩, hds⟩ := List.forall_mem_cons.mp h
    have hselected : d.isSelectedBy statement.filter = b := by rw [Document.isSelectedBy, hb]
    rw [targets, hb, Document.selectedPositions_cons, hselected]
    cases b
    · exact ih hds
    · change (if statement.multi then _ else _) = _
      rw [ih hds]
      split <;> rfl

/-! ### The loop over the positions -/

/-- The causes for which the update of a document is refused, at its position in a collection. -/
inductive RefusesUpdate (name : String) (update : Document) (c : Collection) (i : Nat)
    (d : Document) : StoreError → Prop
  /-- The update cannot be applied to the document. -/
  | update {cause : StoreError} (h : d.updatedBy update = .error cause) :
      RefusesUpdate name update c i d cause
  /-- It makes another one of it, which clashes with a document at another position. -/
  | clash {u : Document} {cause : StoreError} (hu : d.updatedBy update = .ok u)
      (hchanged : u.same d = false)
      (h : Refuses name c.indexes (c.documents.eraseIdx i) u cause) :
      RefusesUpdate name update c i d cause

variable {name : String} {update : Document} {c : Collection}

/-- **One position.** The document there is overwritten and counted, or the update is refused and
changes nothing. -/
theorem updateAt_of_getElem? (name : String) (update : Document) {i : Nat} {d : Document}
    (hd : c.documents[i]? = some d) (reply : UpdateReply) :
    (∃ u, d.updatedBy update = .ok u ∧
      updateAt name update i reply c =
        (.ok ⟨reply.matched + 1, reply.modified + if d.isChangedBy update then 1 else 0⟩,
          { c with documents := c.documents.set i (d.overwrittenBy u) })) ∨
    ∃ cause, c.RefusesUpdate name update i d cause ∧
      updateAt name update i reply c = (.error cause, c) := by
  rw [updateAt, hd]
  dsimp only
  rcases hu : d.updatedBy update with cause | u
  · exact Or.inr ⟨cause, .update hu, rfl⟩
  rw [Document.isChangedBy, hu]
  dsimp only
  by_cases hsame : u.same d = true
  · refine Or.inl ⟨u, rfl, ?_⟩
    obtain ⟨hlt, rfl⟩ := List.getElem?_eq_some_iff.mp hd
    simp [Document.overwrittenBy, hsame]
  · rcases hconflict : conflict? name c.indexes (c.documents.eraseIdx i) u with _ | cause
    · refine Or.inl ⟨u, rfl, ?_⟩
      simp [Document.overwrittenBy, hsame]
    · have hchanged : u.same d = false := Bool.eq_false_iff.mpr hsame
      exact Or.inr ⟨cause, .clash hu hchanged (refuses_of_conflict? hconflict), by simp [hsame]⟩

/-- Whether an update changes the document at a position. -/
def changesAt (update : Document) (ds : List Document) (i : Nat) : Bool :=
  ds[i]?.any (·.isChangedBy update)

/-- What stands at other positions is changed as it was before. -/
private theorem countP_changesAt_set {positions : List Nat} {i : Nat} (hi : i ∉ positions)
    (ds : List Document) (d : Document) :
    positions.countP (changesAt update (ds.set i d)) = positions.countP (changesAt update ds) := by
  refine List.countP_congr fun j hj => ?_
  have hne : i ≠ j := (ne_of_mem_of_not_mem hj hi).symm
  rw [changesAt, changesAt, List.getElem?_set_ne hne]

/-- **A run over several positions** overwrites the documents there and counts them, or it is
refused at one of the positions, when exactly those before it are overwritten. -/
theorem updateEach_targets (name : String) (update : Document) {positions : List Nat}
    (hnodup : positions.Nodup) (hlt : ∀ i ∈ positions, i < c.documents.length)
    (reply : UpdateReply) :
    ∃ es,
      (UpdatedAt update positions c.documents es ∧
        updateEach name update positions reply c =
          (.ok ⟨reply.matched + positions.length,
            reply.modified + positions.countP (changesAt update c.documents)⟩,
            { c with documents := es })) ∨
      ∃ k i d cause, positions[k]? = some i ∧ c.documents[i]? = some d ∧
        UpdatedAt update (positions.take k) c.documents es ∧
        RefusesUpdate name update { c with documents := es } i d cause ∧
        updateEach name update positions reply c = (.error cause, { c with documents := es }) := by
  induction positions generalizing reply c with
  | nil => exact ⟨c.documents, Or.inl ⟨.nil update _, rfl⟩⟩
  | cons i positions ih =>
    obtain ⟨hi, hrest⟩ := List.nodup_cons.mp hnodup
    obtain ⟨hilt, hrestlt⟩ := List.forall_mem_cons.mp hlt
    obtain ⟨d, hd⟩ : ∃ d, c.documents[i]? = some d := ⟨_, List.getElem?_eq_getElem hilt⟩
    rw [updateEach]
    rcases updateAt_of_getElem? name update hd reply with
      ⟨u, hu, hstep⟩ | ⟨cause, hrefuses, hstep⟩ <;> rw [hstep] <;> dsimp only
    · have hlength : ∀ j ∈ positions, j < (c.documents.set i (d.overwrittenBy u)).length := by
        rwa [List.length_set]
      obtain ⟨es, ⟨hes, hrun⟩ | ⟨k, j, e, cause, hj, he, hes, hrefuses, hrun⟩⟩ :=
        ih (c := { c with documents := c.documents.set i (d.overwrittenBy u) }) hrest hlength
          ⟨reply.matched + 1, reply.modified + if d.isChangedBy update then 1 else 0⟩
      · refine ⟨es, Or.inl ⟨.cons hd hu hi hes, ?_⟩⟩
        have hchanges : changesAt update c.documents i = d.isChangedBy update := by
          rw [changesAt, hd, Option.any_some]
        have hmatched : reply.matched + 1 + positions.length =
            reply.matched + (i :: positions).length := by
          rw [List.length_cons]
          omega
        rw [hrun, hmatched, countP_changesAt_set hi, List.countP_cons, hchanges,
          Nat.add_right_comm, Nat.add_assoc]
      · refine ⟨es, Or.inr ⟨k + 1, j, e, cause, hj, ?_, ?_, hrefuses, hrun⟩⟩
        · -- The run does not come back to the first position.
          have hne : i ≠ j := (ne_of_mem_of_not_mem (List.mem_of_getElem? hj) hi).symm
          rwa [List.getElem?_set_ne hne] at he
        · rw [List.take_succ_cons]
          exact .cons hd hu (fun hmem => hi (List.mem_of_mem_take hmem)) hes
    · exact ⟨c.documents, Or.inr ⟨0, i, d, cause, rfl, hd, .nil update _, hrefuses, rfl⟩⟩

end Collection

/-! ### The update of a store -/

namespace Store

variable {s : Store} {h : Handle} {c : Collection} {name : String} {statement : UpdateStatement}

/-- **An update changes exactly its targets**, if its filter can be decided on every document. Where
it succeeds, every target is overwritten by what the update makes of it, and the reply counts the
targets, and those of them that this changed. Where it fails, it is refused at one of the targets,
and exactly those before it are overwritten. All other documents, the indexes and all other
collections are as they were. -/
theorem update_targets [RegexEngine] (hc : s.collection? h name = some c)
    (hfilter : ∀ d ∈ c.documents, ∃ b, d.satisfies statement.filter = .ok b) :
    ∃ es,
      s.Writes h name { c with documents := es } (s.update h ⟨name, [statement]⟩).2 ∧
      ((UpdatedAt statement.update (statement.targetsIn c.documents) c.documents es ∧
          (s.update h ⟨name, [statement]⟩).1 =
            .ok ⟨(statement.targetsIn c.documents).length,
              (statement.targetsIn c.documents).countP
                (Collection.changesAt statement.update c.documents)⟩) ∨
        ∃ k i d cause, (statement.targetsIn c.documents)[k]? = some i ∧
          c.documents[i]? = some d ∧
          UpdatedAt statement.update ((statement.targetsIn c.documents).take k) c.documents es ∧
          Collection.RefusesUpdate name statement.update { c with documents := es } i d cause ∧
          (s.update h ⟨name, [statement]⟩).1 = .error cause) := by
  obtain ⟨hreply, hwrites⟩ := writes_update ⟨name, [statement]⟩ hc
  have htargets : Collection.targets statement 0 c.documents =
      .ok (statement.targetsIn c.documents) := Collection.targets_eq hfilter
  have hlt : ∀ i ∈ statement.targetsIn c.documents, i < c.documents.length := by
    intro i hi
    obtain ⟨d, hd, -⟩ := Collection.exists_of_mem_targets htargets hi
    exact (List.getElem?_eq_some_iff.mp hd).1
  rw [Collection.update_of_targets htargets] at hreply hwrites
  obtain ⟨es, ⟨hes, hrun⟩ | ⟨k, i, d, cause, hi, hd, hes, hrefuses, hrun⟩⟩ :=
    Collection.updateEach_targets name statement.update
      (Collection.nodup_of_targets htargets) hlt ⟨0, 0⟩
  · rw [hrun] at hreply hwrites
    refine ⟨es, hwrites, Or.inl ⟨hes, hreply.trans ?_⟩⟩
    rw [Nat.zero_add, Nat.zero_add]
  · rw [hrun] at hreply hwrites
    exact ⟨es, hwrites, Or.inr ⟨k, i, d, cause, hi, hd, hes, hrefuses, hreply⟩⟩

/-- A collection of three users, two of them of the same age, where users are unique by name. -/
def agedUsers : Collection :=
  ⟨[[(idKey, .int32 1), ("name", .string "a"), ("age", .int32 30)],
    [(idKey, .int32 2), ("name", .string "b"), ("age", .int32 17)],
    [(idKey, .int32 3), ("name", .string "c"), ("age", .int32 30)]],
    [⟨"names", [("name", .int32 1)], true⟩]⟩

/-- A store of these users. -/
def agedStore : Store := ⟨⟨[("users", agedUsers)]⟩, [], []⟩

/-- A statement that gives one name to all users of that age. -/
def renameAged : UpdateStatement :=
  ⟨[("age", .int32 30)], [("$set", .document [("name", .string "x")])], true⟩

attribute [local instance] Runtime.engine

/-- Its targets are the first and the third user. The third is refused the name, which the first has
by then, and the first alone is overwritten. -/
theorem update_targets_renameAged :
    (∀ d ∈ agedUsers.documents, ∃ b, d.satisfies renameAged.filter = .ok b) ∧
      renameAged.targetsIn agedUsers.documents = [0, 2] ∧
      ∃ es, agedStore.Writes .base "users" { agedUsers with documents := es }
          (agedStore.update .base ⟨"users", [renameAged]⟩).2 ∧
        UpdatedAt renameAged.update [0] agedUsers.documents es ∧
        (agedStore.update .base ⟨"users", [renameAged]⟩).1 =
          .error (.duplicateKey "users" "names" "[\"x\"]") := by
  have hfilter : ∀ d ∈ agedUsers.documents, ∃ b, d.satisfies renameAged.filter = .ok b := by
    intro d hd
    simp only [agedUsers, List.mem_cons, List.not_mem_nil, or_false] at hd
    rcases hd with rfl | rfl | rfl <;> exact ⟨_, rfl⟩
  have htargets : renameAged.targetsIn agedUsers.documents = [0, 2] := rfl
  have hc : agedStore.collection? .base "users" = some agedUsers := rfl
  have hreply : (agedStore.update .base ⟨"users", [renameAged]⟩).1 =
      .error (.duplicateKey "users" "names" "[\"x\"]") := rfl
  obtain ⟨es, hwrites, ⟨-, hok⟩ | ⟨k, i, d, cause, hi, -, hes, -, -⟩⟩ :=
    update_targets hc hfilter
  · rw [hreply] at hok
    cases hok
  rw [htargets] at hi hes
  rcases k with _ | _ | k
  · -- The first user has the new name, so there is a target before the one that is refused.
    have hfirst : es[0]? = agedUsers.documents[0]? := hes.kept 0 List.not_mem_nil
    have hstored : some { agedUsers with documents := es } =
        (agedStore.update .base ⟨"users", [renameAged]⟩).2.collection? .base "users" :=
      hwrites.collection_eq.symm
    obtain rfl := congrArg Collection.documents (Option.some.inj hstored)
    exact absurd hfirst (by decide)
  · exact ⟨hfilter, htargets, es, hwrites, hes, hreply⟩
  · cases hi

end Store

end DocQuery
