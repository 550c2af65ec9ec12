import DocQuery.Proofs.Requests
import DocQuery.Runtime.Regex.Engine

/-!
# Transactions are isolated and finish once

A transaction works on a copy of the committed catalog that is taken at its start. The main theorem,
`Store.snapshot_isolation`, follows one transaction through any run of requests in which other
handles take turns with it, and compares it with its own operations on that copy alone
(`Operation.onAll`): until it is asked to finish, its replies and its working copy are the same.

Two simulations carry the proof, each one step and then a run. While the transaction is open, a
request either is an operation on it, and acts on the working copy as on a catalog alone, or leaves
the working copy as it is (`Store.catalog?_perform_of_other`). Once it is closed, it stays closed
(`Store.closed_perform`), and a request on its handle is refused without touching any catalog
(`Store.perform_of_closed`).
-/

namespace DocQuery

/-- The cause for which a request on a finished transaction is refused. -/
def Request.refusal : Request → StoreError
  | .start _ => .transactionInProgress
  | _ => .transactionFinished

/-- A request with an operation on a handle is that operation on it. -/
private theorem Request.eq_of_operationOn? {r : Request} {h : Handle} {o : Operation}
    (ho : r.operationOn? h = some o) : r = .command h o := by
  cases r with
  | command h' o' =>
    obtain ⟨rfl, rfl⟩ : h' = h ∧ o' = o := by simpa [operationOn?] using ho
    rfl
  | _ => cases ho

namespace Store

/-! ### Operations touch the catalog of their handle -/

/-- An operation on one handle leaves the catalogs of the others. -/
theorem catalog?_perform_command_of_ne [RegexEngine] (s : Store) {h h' : Handle} (hne : h ≠ h')
    (o : Operation) : (s.perform (.command h o)).2.catalog? h' = s.catalog? h' := by
  rw [perform_command]
  split
  · rw [catalog?_record]
  · rw [catalog?_withCatalog_of_ne _ hne, catalog?_record]

/-- Closing one transaction leaves the working copies of the others. -/
private theorem catalog?_set_of_ne (s : Store) {m n : Nat} (hne : m ≠ n) (cat : Catalog)
    (j : List Command) :
    catalog? (.transaction n) ⟨cat, s.working.set m none, j⟩ = s.catalog? (.transaction n) := by
  simp only [catalog?, List.getElem?_set_ne hne]

/-! ### While a transaction is open -/

/-- **An operation on an open handle** is answered as by its catalog alone, and acts on that. -/
theorem perform_command_of_open [RegexEngine] {s : Store} {h : Handle} {cat : Catalog}
    (hcat : s.catalog? h = some cat) (o : Operation) :
    (s.perform (.command h o)).1 = (o.on cat).1 ∧
      (s.perform (.command h o)).2.catalog? h = some (o.on cat).2 := by
  rw [perform_command, hcat]
  exact ⟨rfl, catalog?_withCatalog_self (by rwa [catalog?_record]) _⟩

/-- **Any other request**, but one to finish the transaction, leaves its working copy as it is. -/
theorem catalog?_perform_of_other [RegexEngine] {s : Store} {n : Nat} {cat : Catalog}
    (hcat : s.catalog? (.transaction n) = some cat) {r : Request} (hopen : r.finishes n = false)
    (hother : r.operationOn? (.transaction n) = none) :
    (s.perform r).2.catalog? (.transaction n) = some cat := by
  cases r with
  | command h o =>
    have hne : h ≠ .transaction n := by simpa [Request.operationOn?] using hother
    rw [catalog?_perform_command_of_ne s hne, hcat]
  | start h =>
    cases h with
    | transaction m => exact hcat
    | base =>
      have hn : s.working[n]? = some (some cat) := Option.join_eq_some_iff.mp hcat
      obtain ⟨hlt, -⟩ := List.getElem?_eq_some_iff.mp hn
      -- The copy of the new transaction comes last, and takes the number of no other.
      rw [perform_start_base]
      simp only [catalog?, List.getElem?_append_left hlt]
      exact hcat
  | commit m =>
    have hne : m ≠ n := of_decide_eq_false hopen
    rw [perform_commit]
    split
    · exact hcat
    · exact (catalog?_set_of_ne s hne _ _).trans hcat
  | abort m =>
    have hne : m ≠ n := of_decide_eq_false hopen
    rw [perform_abort]
    split
    · exact hcat
    · exact (catalog?_set_of_ne s hne _ _).trans hcat

/-- **A run while a transaction is open.** The replies to its operations and its working copy are
those of running these operations alone, in order, on the working copy it had. -/
theorem heard_of_open [RegexEngine] {s : Store} {n : Nat} {cat : Catalog}
    (hcat : s.catalog? (.transaction n) = some cat) {rs : List Request}
    (hopen : ∀ r ∈ rs, r.finishes n = false) :
    heard (.transaction n) rs s =
        (Operation.onAll (rs.filterMap (·.operationOn? (.transaction n))) cat).1 ∧
      (s.after rs).catalog? (.transaction n) =
        some (Operation.onAll (rs.filterMap (·.operationOn? (.transaction n))) cat).2 := by
  induction rs generalizing s cat with
  | nil => exact ⟨rfl, hcat⟩
  | cons r rs ih =>
    have hr : r.finishes n = false := hopen r List.mem_cons_self
    have hrs : ∀ r' ∈ rs, r'.finishes n = false :=
      fun r' hr' => hopen r' (List.mem_cons_of_mem r hr')
    rcases ho : r.operationOn? (.transaction n) with _ | o
    · obtain ⟨hheard, hcopy⟩ := ih (catalog?_perform_of_other hcat hr ho) hrs
      simp only [heard, ho, after_cons, List.filterMap_cons_none ho]
      exact ⟨hheard, hcopy⟩
    · obtain rfl : r = .command (.transaction n) o := Request.eq_of_operationOn? ho
      obtain ⟨hreply, hstep⟩ := perform_command_of_open hcat o
      -- The rest of the run starts from the copy that the operation leaves.
      obtain ⟨hheard, hcopy⟩ := ih hstep hrs
      simp only [heard, ho, after_cons, List.filterMap_cons_some ho, Operation.onAll]
      exact ⟨by rw [hreply, hheard], hcopy⟩

/-! ### Once a transaction is closed -/

/-- The transaction of that number was started, and has been committed or aborted. -/
def Closed (n : Nat) (s : Store) : Prop := s.working[n]? = some none

private theorem catalog?_of_closed {n : Nat} {s : Store} (h : s.Closed n) :
    s.catalog? (.transaction n) = none := by
  rw [Closed] at h
  simp only [catalog?, h, Option.join_some]

/-- Closing a transaction that was started closes it, and no other. -/
private theorem closed_set {n m : Nat} {s : Store} (hs : s.Closed n ∨ m = n ∧ n < s.working.length)
    (cat : Catalog) (j : List Command) : Closed n ⟨cat, s.working.set m none, j⟩ := by
  simp only [Closed, List.getElem?_set] at hs ⊢
  rcases hs with hs | ⟨rfl, hlt⟩
  · obtain ⟨hlt, -⟩ := List.getElem?_eq_some_iff.mp hs
    split
    · next hmn => rw [if_pos (by omega)]
    · exact hs
  · rw [if_pos rfl, if_pos hlt]

/-- A closed transaction stays closed, whatever is asked. -/
theorem closed_perform [RegexEngine] {n : Nat} {s : Store} (hs : s.Closed n) (r : Request) :
    (s.perform r).2.Closed n := by
  cases r with
  | command h o =>
    rw [perform_command]
    rcases hcat : s.catalog? h with _ | cat
    · exact hs
    · cases h with
      | base => exact hs
      | transaction m =>
        -- An operation that writes is on an open transaction, hence on another one.
        have hne : m ≠ n := by
          rintro rfl
          rw [catalog?_of_closed hs] at hcat
          cases hcat
        simp only [Closed, withCatalog, record, List.getElem?_set_ne hne]
        exact hs
  | start h =>
    cases h with
    | transaction m => exact hs
    | base =>
      obtain ⟨hlt, -⟩ := List.getElem?_eq_some_iff.mp hs
      rw [perform_start_base]
      simp only [Closed, List.getElem?_append_left hlt]
      exact hs
  | commit m =>
    rw [perform_commit]
    split
    · exact hs
    · exact closed_set (Or.inl hs) _ _
  | abort m =>
    rw [perform_abort]
    split
    · exact hs
    · exact closed_set (Or.inl hs) _ _

private theorem closed_after [RegexEngine] {n : Nat} {s : Store} (hs : s.Closed n)
    (rs : List Request) :
    (s.after rs).Closed n := by
  induction rs generalizing s with
  | nil => exact hs
  | cons r rs ih => exact ih (closed_perform hs r)

/-- **A request on a closed transaction** is refused and changes no catalog. -/
theorem perform_of_closed [RegexEngine] {n : Nat} {s : Store} (hs : s.Closed n) {r : Request}
    (hr : r.handle = .transaction n) :
    (s.perform r).1 = .error r.refusal ∧ ∀ h, (s.perform r).2.catalog? h = s.catalog? h := by
  have hnone := catalog?_of_closed hs
  cases r with
  | command h o =>
    obtain rfl : h = .transaction n := hr
    rw [perform_command, hnone]
    exact ⟨rfl, fun h => rfl⟩
  | start h =>
    obtain rfl : h = .transaction n := hr
    exact ⟨rfl, fun h => rfl⟩
  | commit m =>
    obtain rfl : m = n := Handle.transaction.inj hr
    rw [perform_commit, hnone]
    exact ⟨rfl, fun h => rfl⟩
  | abort m =>
    obtain rfl : m = n := Handle.transaction.inj hr
    rw [perform_abort, hnone]
    exact ⟨rfl, fun h => rfl⟩

/-! ### The life of a transaction -/

/-- A request to finish an open transaction succeeds and closes it. It leaves the catalogs of the
other handles, but for the committed one, which a commit replaces by the working copy. -/
private theorem perform_finish_of_open [RegexEngine] {s : Store} {n : Nat} {cat : Catalog}
    (hcat : s.catalog? (.transaction n) = some cat) {r : Request} (hr : r.finishes n = true) :
    (s.perform r).1 = .ok .done ∧ (s.perform r).2.Closed n ∧
      (s.perform r).2.committed = (match r with | .commit _ => cat | _ => s.committed) ∧
      ∀ m, m ≠ n → (s.perform r).2.catalog? (.transaction m) = s.catalog? (.transaction m) := by
  have hn : s.working[n]? = some (some cat) := Option.join_eq_some_iff.mp hcat
  obtain ⟨hlt, -⟩ := List.getElem?_eq_some_iff.mp hn
  cases r with
  | command h o => cases hr
  | start h => cases hr
  | commit m =>
    obtain rfl : m = n := of_decide_eq_true hr
    rw [perform_commit, hcat]
    exact ⟨rfl, closed_set (Or.inr ⟨rfl, hlt⟩) _ _, rfl,
      fun k hk => catalog?_set_of_ne s (Ne.symm hk) _ _⟩
  | abort m =>
    obtain rfl : m = n := of_decide_eq_true hr
    rw [perform_abort, hcat]
    exact ⟨rfl, closed_set (Or.inr ⟨rfl, hlt⟩) _ _, rfl,
      fun k hk => catalog?_set_of_ne s (Ne.symm hk) _ _⟩

/-- **Snapshot isolation.** Let transaction `n` be started, and then any run `rs` of requests on any
handles take place that does not ask to finish it; `u` is the store after that. The replies to the
operations on the transaction, and its working copy, are those of these operations alone on a copy
of the catalog committed at its start. Its next operation would change no other catalog. An abort
would succeed and leave the committed catalog, a commit would succeed and install exactly that copy.
After either, and after any further run `rs'`, every request on the transaction is refused and
changes no catalog. -/
theorem snapshot_isolation [RegexEngine] {s t : Store} {n : Nat}
    (hstart : s.perform (.start .base) = (.ok (.number n), t)) (rs : List Request)
    (hopen : ∀ r ∈ rs, r.finishes n = false) :
    let own := rs.filterMap (·.operationOn? (.transaction n))
    let u := t.after rs
    (heard (.transaction n) rs t = (Operation.onAll own s.committed).1 ∧
      u.catalog? (.transaction n) = some (Operation.onAll own s.committed).2) ∧
    (∀ o h, h ≠ .transaction n →
      (u.perform (.command (.transaction n) o)).2.catalog? h = u.catalog? h) ∧
    ((u.perform (.abort n)).1 = .ok .done ∧ (u.perform (.abort n)).2.committed = u.committed) ∧
    ((u.perform (.commit n)).1 = .ok .done ∧
      (u.perform (.commit n)).2.committed = (Operation.onAll own s.committed).2) ∧
    ∀ last : Request, last.finishes n = true → ∀ (rs' : List Request) (r : Request),
      r.handle = .transaction n →
        let v := (u.perform last).2.after rs'
        (v.perform r).1 = .error r.refusal ∧ ∀ h, (v.perform r).2.catalog? h = v.catalog? h := by
  intro own u
  have hcopy : t.catalog? (.transaction n) = some s.committed := by
    rw [perform_start_base] at hstart
    obtain ⟨hn, rfl⟩ := Prod.mk.inj hstart
    obtain rfl : s.working.length = n := Report.number.inj (Except.ok.inj hn)
    simp [catalog?]
  obtain ⟨hheard, hwork⟩ := heard_of_open hcopy hopen
  have habort := perform_finish_of_open hwork (r := .abort n) (by simp [Request.finishes])
  have hcommit := perform_finish_of_open hwork (r := .commit n) (by simp [Request.finishes])
  refine ⟨⟨hheard, hwork⟩, fun o h hne => ?_, ⟨habort.1, habort.2.2.1⟩,
    ⟨hcommit.1, hcommit.2.2.1⟩, fun last hlast rs' r hr => ?_⟩
  · exact catalog?_perform_command_of_ne u (Ne.symm hne) o
  · obtain ⟨-, hclosed, -⟩ := perform_finish_of_open hwork hlast
    exact perform_of_closed (closed_after hclosed rs') hr

attribute [local instance] Runtime.engine

/-- A store of one user. -/
def oneUser : Store :=
  empty.after [.command .base (.insert .ofNat ⟨"users", [[("_id", .int32 1)]]⟩)]

/-- A transaction inserts a second user and counts them, while the committed users are dropped and
another transaction is started: it counts two, and a commit brings both back. -/
theorem snapshot_isolation_of_drop :
    let t := (oneUser.perform (.start .base)).2
    let rs : List Request :=
      [.command (.transaction 0) (.insert .ofNat ⟨"users", [[("_id", .int32 2)]]⟩),
        .command .base (.drop "users"), .start .base,
        .command (.transaction 0) (.count ⟨"users", []⟩)]
    oneUser.perform (.start .base) = (.ok (.number 0), t) ∧ (∀ r ∈ rs, r.finishes 0 = false) ∧
      heard (.transaction 0) rs t = [.ok (.number 1), .ok (.number 2)] ∧
      ((t.after rs).perform (.commit 0)).2.committed =
        ⟨[("users", ⟨[[("_id", .int32 1)], [("_id", .int32 2)]], []⟩)]⟩ := by
  intro t rs
  have hopen : ∀ r ∈ rs, r.finishes 0 = false := by decide
  obtain ⟨⟨hheard, -⟩, -, -, ⟨-, hcommitted⟩, -⟩ :=
    snapshot_isolation (s := oneUser) (t := t) (n := 0) rfl rs hopen
  exact ⟨rfl, hopen, hheard, hcommitted⟩

end Store

end DocQuery
