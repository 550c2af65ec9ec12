import DocQuery.Proofs.UpdateTargets
import DocQuery.Runtime.Regex.Engine

/-!
# Deletions remove exactly what they select

A deletion examines the documents of a collection in their order, all of them or, when it is limited
to one, those up to the first that it selects (`DeleteScope.Examines`). A document on which its
filter cannot be decided makes it fail, and then nothing is removed. Otherwise it removes the
selected documents, or the first of them, and leaves the others as they are
(`DeleteScope.survivors`).

The main theorem is `Store.delete_survivors`. It follows the documents; that the positions which an
update with the same filter goes to are those at which documents are removed, is
`Collection.delete_eq_targets`.
-/

namespace DocQuery

namespace DeleteScope

variable [RegexEngine]

/-- A deletion goes on behind documents: when it is limited to one, none of them is selected. -/
def GoesBeyond (limit : DeleteScope) (query : Document) (before : List Document) : Prop :=
  limit = .one → ∀ d ∈ before, d.isSelectedBy query = false

/-- A deletion that goes on behind all documents before it examines a document. -/
def Examines (limit : DeleteScope) (query : Document) (ds : List Document) (d : Document) : Prop :=
  ∃ before behind, ds = before ++ d :: behind ∧ limit.GoesBeyond query before

/-- What a deletion leaves: the documents that are not selected or, when it is limited to one, all
but the first that is. -/
def survivors (limit : DeleteScope) (query : Document) (ds : List Document) : List Document :=
  match limit with
  | .one => ds.eraseP (·.isSelectedBy query)
  | .all => ds.filter (!·.isSelectedBy query)

variable {limit : DeleteScope} {query d : Document} {ds : List Document}

theorem goesBeyond_nil : limit.GoesBeyond query [] := fun _ => nofun

private theorem GoesBeyond.cons {before : List Document} (h : limit.GoesBeyond query before)
    (hd : d.isSelectedBy query = true → limit = .all) :
    limit.GoesBeyond query (d :: before) := by
  intro hone
  refine List.forall_mem_cons.mpr ⟨Bool.eq_false_iff.mpr fun hselected => ?_, h hone⟩
  cases hone.symm.trans (hd hselected)

/-- What is examined is the first document, or examined behind it, where a deletion gets to only if
it does not end with the first. -/
private theorem Examines.head_or_tail {e : Document} (h : limit.Examines query (d :: ds) e) :
    e = d ∨ (d.isSelectedBy query = true → limit = .all) ∧ limit.Examines query ds e := by
  obtain ⟨before, behind, heq, hbeyond⟩ := h
  rcases before with _ | ⟨first, before⟩
  · exact Or.inl (List.cons.inj heq).1.symm
  · obtain ⟨rfl, hrest⟩ := List.cons.inj heq
    refine Or.inr ⟨fun hselected => ?_, before, behind, hrest, fun hone e he =>
      hbeyond hone e (List.mem_cons_of_mem d he)⟩
    by_contra hall
    have hone : limit = .one := by
      cases limit
      · rfl
      · exact absurd rfl hall
    rw [hbeyond hone d List.mem_cons_self] at hselected
    cases hselected

/-- What is selected and removed, and what is left, are all documents. -/
private theorem length_survivors (limit : DeleteScope) (query : Document) (ds : List Document) :
    (limit.page (ds.filter (·.isSelectedBy query))).length + (limit.survivors query ds).length =
      ds.length := by
  cases limit with
  | one =>
    rw [page, survivors, List.length_take, ← List.countP_eq_length_filter]
    by_cases hselected : ∃ d ∈ ds, d.isSelectedBy query = true
    · obtain ⟨d, hd, hd'⟩ := hselected
      have hpos : 0 < ds.countP (·.isSelectedBy query) := List.countP_pos_iff.mpr ⟨d, hd, hd'⟩
      have hlength := List.length_pos_of_mem hd
      rw [List.length_eraseP_of_mem (p := (·.isSelectedBy query)) hd hd']
      omega
    · push Not at hselected
      rw [List.eraseP_of_forall_not hselected, List.countP_eq_zero.mpr hselected]
      simp
  | all =>
    rw [page, survivors, ← List.countP_eq_length_filter, ← List.countP_eq_length_filter]
    simpa using (List.length_eq_countP_add_countP (·.isSelectedBy query) (l := ds)).symm

end DeleteScope

namespace Collection

variable {query : Document} {limit : DeleteScope} {ds : List Document} {c : Collection}

/-! ### One document -/

section Step

variable [RegexEngine] {d : Document} {cause : StoreError}

private theorem remaining_cons_error (hd : d.satisfies query = .error cause) :
    remaining query limit (d :: ds) = .error cause := by
  unfold remaining
  rw [hd]
  rfl

/-- A document that the filter does not admit stays. -/
private theorem remaining_cons_off (hd : d.satisfies query = .ok false) :
    remaining query limit (d :: ds) = (remaining query limit ds).map (d :: ·) := by
  conv_lhs => unfold remaining
  rw [hd]
  rfl

/-- The first one that it admits is removed, and with it a deletion of one document ends. -/
private theorem remaining_cons_one (hd : d.satisfies query = .ok true) :
    remaining query .one (d :: ds) = .ok ds := by
  unfold remaining
  rw [hd]
  rfl

private theorem remaining_cons_all (hd : d.satisfies query = .ok true) :
    remaining query .all (d :: ds) = remaining query .all ds := by
  conv_lhs => unfold remaining
  rw [hd]
  rfl

end Step

/-! ### All documents -/

/-- **The documents that a deletion leaves** are the survivors, if its filter can be decided on
every document that it examines. Otherwise the first of these on which it cannot decides what the
deletion fails with. -/
theorem remaining_eq [RegexEngine] (query : Document) (limit : DeleteScope) (ds : List Document) :
    (∃ before d behind cause, ds = before ++ d :: behind ∧ limit.GoesBeyond query before ∧
        (∀ e ∈ before, ∃ b, e.satisfies query = .ok b) ∧ d.satisfies query = .error cause ∧
        remaining query limit ds = .error cause) ∨
      (∀ d, limit.Examines query ds d → ∃ b, d.satisfies query = .ok b) ∧
        remaining query limit ds = .ok (limit.survivors query ds) := by
  induction ds with
  | nil =>
    refine Or.inr ⟨fun d ⟨before, behind, heq, _⟩ => ?_, ?_⟩
    · simp at heq
    · cases limit <;> rfl
  | cons d ds ih =>
    rcases hd : d.satisfies query with cause | b
    · exact Or.inl ⟨[], d, ds, cause, rfl, DeleteScope.goesBeyond_nil, nofun, hd,
        remaining_cons_error hd⟩
    have hselected : d.isSelectedBy query = b := by rw [Document.isSelectedBy, hd]
    -- A deletion that is limited to one ends with the first document that it selects.
    by_cases hend : b = true ∧ limit = .one
    · obtain ⟨rfl, rfl⟩ := hend
      refine Or.inr ⟨fun e he => ?_, ?_⟩
      · rcases he.head_or_tail with rfl | ⟨hall, -⟩
        · exact ⟨true, hd⟩
        · cases hall hselected
      · have hrest : (d :: ds).eraseP (·.isSelectedBy query) = ds :=
          List.eraseP_cons_of_pos (p := fun e => Document.isSelectedBy e query) hselected
        rw [remaining_cons_one hd, DeleteScope.survivors, hrest]
    have hon : d.isSelectedBy query = true → limit = .all := by
      intro hb
      cases limit
      · exact absurd ⟨hselected.symm.trans hb, rfl⟩ hend
      · rfl
    have hstep : remaining query limit (d :: ds) =
        (remaining query limit ds).map (if b then id else (d :: ·)) := by
      cases b
      · exact remaining_cons_off hd
      · obtain rfl := hon hselected
        exact (remaining_cons_all hd).trans (id_map _).symm
    rcases ih with ⟨before, e, behind, cause, rfl, hbeyond, hbefore, he, hfails⟩ | ⟨hall, hok⟩
    · refine Or.inl ⟨d :: before, e, behind, cause, rfl, hbeyond.cons hon,
        List.forall_mem_cons.mpr ⟨⟨b, hd⟩, hbefore⟩, he, ?_⟩
      rw [hstep, hfails]
      rfl
    · refine Or.inr ⟨fun e he => ?_, ?_⟩
      · rcases he.head_or_tail with rfl | ⟨-, he⟩
        · exact ⟨b, hd⟩
        · exact hall e he
      · rw [hstep, hok]
        cases b
        · cases limit <;> simp [DeleteScope.survivors, hselected, Except.map]
        · obtain rfl := hon hselected
          simp [DeleteScope.survivors, hselected, Except.map]

/-! ### Positions -/

/-- The documents at other positions than the given ones; the position of the first is given,
too. -/
def offPositions (positions : List Nat) (n : Nat) (ds : List Document) : List Document :=
  ((ds.zipIdx n).filter fun e => !positions.contains e.2).map (·.1)

theorem offPositions_cons (positions : List Nat) (n : Nat) (d : Document) (ds : List Document) :
    offPositions positions n (d :: ds) =
      if n ∈ positions then offPositions positions (n + 1) ds
      else d :: offPositions positions (n + 1) ds := by
  by_cases hn : n ∈ positions <;> simp [offPositions, hn]

/-- Positions before the first document do not matter. -/
private theorem offPositions_cons_of_lt {positions : List Nat} {i n : Nat} (hi : i < n)
    (ds : List Document) : offPositions (i :: positions) n ds = offPositions positions n ds := by
  induction ds generalizing n with
  | nil => rfl
  | cons d ds ih =>
    have hne : n ≠ i := by omega
    rw [offPositions_cons, offPositions_cons, ih (Nat.lt_succ_of_lt hi)]
    simp [hne]

theorem offPositions_nil (n : Nat) (ds : List Document) : offPositions [] n ds = ds := by
  induction ds generalizing n with
  | nil => rfl
  | cons d ds ih => rw [offPositions_cons, ih, if_neg List.not_mem_nil]

/-- What a deletion leaves are the documents off the positions that an update with its filter goes
to, for many documents or for one. -/
private theorem remaining_of_targets [RegexEngine] {update : Document} {n : Nat}
    {positions : List Nat} (h : targets ⟨query, update, limit = .all⟩ n ds = .ok positions) :
    remaining query limit ds = .ok (offPositions positions n ds) ∧
      positions.length + (offPositions positions n ds).length = ds.length := by
  induction ds generalizing n positions with
  | nil =>
    obtain rfl := Except.ok.inj h
    exact ⟨rfl, rfl⟩
  | cons d ds ih =>
    rw [targets] at h
    obtain ⟨b, hb, h⟩ := bind_eq_ok_iff.mp h
    -- The positions behind the first document are beyond its own.
    have hbehind : ∀ {rest : List Nat},
        targets ⟨query, update, limit = .all⟩ (n + 1) ds = .ok rest → n ∉ rest := by
      intro rest hrest hmem
      obtain ⟨j, -, hj, -⟩ := satisfies_of_targets hrest hmem
      omega
    cases b
    · obtain ⟨hremaining, hlength⟩ := ih h
      rw [offPositions_cons, if_neg (hbehind h)]
      refine ⟨?_, ?_⟩
      · rw [remaining_cons_off hb, hremaining]
        rfl
      · rw [List.length_cons, List.length_cons, ← hlength]
        rfl
    · cases limit
      · obtain rfl := Except.ok.inj h
        rw [offPositions_cons, if_pos List.mem_cons_self,
          offPositions_cons_of_lt (Nat.lt_succ_self n), offPositions_nil]
        refine ⟨remaining_cons_one hb, ?_⟩
        rw [List.length_singleton, List.length_cons, Nat.add_comm]
      · obtain ⟨rest, hrest, h⟩ := bind_eq_ok_iff.mp h
        obtain rfl := Except.ok.inj h
        obtain ⟨hremaining, hlength⟩ := ih hrest
        rw [offPositions_cons, if_pos List.mem_cons_self,
          offPositions_cons_of_lt (Nat.lt_succ_self n)]
        refine ⟨(remaining_cons_all hb).trans hremaining, ?_⟩
        rw [List.length_cons, List.length_cons, ← hlength, Nat.add_right_comm]

/-- A filter that cannot be decided stops an update and a deletion at the same document. -/
private theorem remaining_of_targets_error [RegexEngine] {update : Document} {n : Nat}
    {cause : StoreError} (h : targets ⟨query, update, limit = .all⟩ n ds = .error cause) :
    remaining query limit ds = .error cause := by
  induction ds generalizing n with
  | nil => cases h
  | cons d ds ih =>
    rw [targets] at h
    rcases bind_eq_error_iff.mp h with hd | ⟨b, hb, h⟩
    · exact remaining_cons_error hd
    · cases b
      · rw [remaining_cons_off hb, ih h]
        rfl
      · cases limit
        · cases h
        · rcases bind_eq_error_iff.mp h with hrest | ⟨rest, -, hnone⟩
          · exact (remaining_cons_all hb).trans (ih hrest)
          · cases hnone

/-- **Deletions by position.** A deletion collects the positions that an update with its filter goes
to, and removes the documents there. -/
theorem delete_eq_targets [RegexEngine] (query : Document) (limit : DeleteScope) (update : Document)
    (c : Collection) :
    delete query limit c =
      match targets ⟨query, update, limit = .all⟩ 0 c.documents with
      | .error cause => (.error cause, c)
      | .ok positions =>
        (.ok positions.length, { c with documents := offPositions positions 0 c.documents }) := by
  rw [delete]
  rcases h : targets ⟨query, update, limit = .all⟩ 0 c.documents with cause | positions
  · rw [remaining_of_targets_error h]
  · obtain ⟨hremaining, hlength⟩ := remaining_of_targets h
    rw [hremaining]
    have hdeleted : c.documents.length - (offPositions positions 0 c.documents).length =
        positions.length := by omega
    dsimp only
    rw [hdeleted]

end Collection

namespace Store

variable {s : Store} {h : Handle} {c : Collection}

/-- **A deletion removes exactly what it selects.** If its filter cannot be decided on a document
that it examines, it fails with the cause of the first such document, and the collection is as it
was. Otherwise it leaves the documents that are not selected or, when it is limited to one, all but
the first that is, unchanged and in their order, and the reply counts those that it removed. The
indexes and all other collections are as they were. -/
theorem delete_survivors [RegexEngine] {command : DeleteCommand}
    (hc : s.collection? h command.collection = some c) :
    (∃ before d behind cause, c.documents = before ++ d :: behind ∧
        command.limit.GoesBeyond command.filter before ∧
        (∀ e ∈ before, ∃ b, e.satisfies command.filter = .ok b) ∧
        d.satisfies command.filter = .error cause ∧
        (s.delete h command).1 = .error cause ∧
        s.Writes h command.collection c (s.delete h command).2) ∨
      (∀ d, command.limit.Examines command.filter c.documents d →
          ∃ b, d.satisfies command.filter = .ok b) ∧
        (s.delete h command).1 = .ok (command.limit.page
          (c.documents.filter (·.isSelectedBy command.filter))).length ∧
        s.Writes h command.collection
          { c with documents := command.limit.survivors command.filter c.documents }
          (s.delete h command).2 := by
  obtain ⟨hreply, hwrites⟩ := writes_delete command hc
  rw [Collection.delete] at hreply hwrites
  rcases Collection.remaining_eq command.filter command.limit c.documents with
    ⟨before, d, behind, cause, hdocuments, hbeyond, hbefore, hd, hfails⟩ | ⟨hall, hok⟩
  · rw [hfails] at hreply hwrites
    exact Or.inl ⟨before, d, behind, cause, hdocuments, hbeyond, hbefore, hd, hreply, hwrites⟩
  · rw [hok] at hreply hwrites
    refine Or.inr ⟨hall, hreply.trans (congrArg Except.ok ?_), hwrites⟩
    have hlength := command.limit.length_survivors command.filter c.documents
    omega

/-- A query for the users of an age, which cannot be decided on other users: they would have to be
one of something that is no list. -/
def agedOrListed : Document :=
  [("$or", .array [.document [("age", .int32 30)],
    .document [("name", .document [("$in", .string "x")])]])]

attribute [local instance] Runtime.engine

/-- Limited to one, the deletion ends with the first user, who is of that age. Without the limit it
fails on the second one, and removes nobody. -/
theorem delete_survivors_agedOrListed :
    (agedStore.delete .base ⟨"users", agedOrListed, .one⟩).1 = .ok 1 ∧
      agedStore.Writes .base "users" { agedUsers with documents := agedUsers.documents.drop 1 }
        (agedStore.delete .base ⟨"users", agedOrListed, .one⟩).2 ∧
      (agedStore.delete .base ⟨"users", agedOrListed, .all⟩).1 =
        .error (.invalidOperand "$in") ∧
      agedStore.Writes .base "users" agedUsers
        (agedStore.delete .base ⟨"users", agedOrListed, .all⟩).2 := by
  have hc : agedStore.collection? .base "users" = some agedUsers := rfl
  have hone : (agedStore.delete .base ⟨"users", agedOrListed, .one⟩).1 = .ok 1 := rfl
  have hall : (agedStore.delete .base ⟨"users", agedOrListed, .all⟩).1 =
      .error (.invalidOperand "$in") := rfl
  have hwritesOne : agedStore.Writes .base "users"
      { agedUsers with documents := agedUsers.documents.drop 1 }
      (agedStore.delete .base ⟨"users", agedOrListed, .one⟩).2 := by
    rcases @delete_survivors agedStore .base agedUsers _ ⟨"users", agedOrListed, .one⟩ hc with
      ⟨_, _, _, _, _, _, _, _, hfails, _⟩ | ⟨-, -, hwrites⟩
    · cases hone.symm.trans hfails
    · exact hwrites
  have hwritesAll : agedStore.Writes .base "users" agedUsers
      (agedStore.delete .base ⟨"users", agedOrListed, .all⟩).2 := by
    rcases @delete_survivors agedStore .base agedUsers _ ⟨"users", agedOrListed, .all⟩ hc with
      ⟨_, _, _, _, _, _, _, _, _, hwrites⟩ | ⟨-, hok, -⟩
    · exact hwrites
    · cases hall.symm.trans hok
  exact ⟨hone, hwritesOne, hall, hwritesAll⟩

end Store

end DocQuery
