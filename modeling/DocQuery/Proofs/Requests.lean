import DocQuery.Store

/-!
# Requests

A store serves requests: operations on the catalog of a handle, and the three that start and finish
transactions. `Store.perform` serves one of them by the operation of the store that it names, and
`Store.after` a whole run, in which the handles may take turns in any order.

What an operation does is said once: on a handle with a catalog it answers what the catalog alone
answers and replaces that catalog, and on any other handle it is refused (`Store.perform_command`).
So a property of catalogs that operations keep is kept by every request, for all catalogs that a
handle can work on (`Store.everywhere_perform`).
-/

namespace DocQuery

/-! ### Operations on a catalog -/

/-- What a handle can ask of the catalog it works on. An insertion carries the identities that it
gives to documents without one, so that it means the same on every catalog. -/
inductive Operation where
  | find (c : FindCommand)
  | aggregate (c : AggregateCommand)
  | count (c : CountCommand)
  | insert (fresh : Nat → ObjectId) (c : InsertCommand)
  | update (c : UpdateCommand)
  | delete (c : DeleteCommand)
  | createIndexes (c : IndexCommand)
  | drop (name : String)

/-- What a request that succeeds reports. -/
inductive Report where
  | documents (ds : List Document)
  | number (n : Nat)
  | updated (reply : UpdateReply)
  | done
deriving DecidableEq

/-- The reply to a request. -/
abbrev Reply := Except StoreError Report

namespace Operation

/-- The command that the journal keeps of an operation. -/
def command : Operation → Command
  | .find c => .find c
  | .aggregate c => .aggregate c
  | .count c => .count c
  | .insert _ c => .insert c
  | .update c => .update c
  | .delete c => .delete c
  | .createIndexes c => .createIndexes c
  | .drop name => .drop name

/-- The reply of a catalog to an operation, and the catalog after it. -/
def on [RegexEngine] : Operation → Catalog → Reply × Catalog
  | .find c, cat => ((cat.find c).map .documents, cat)
  | .aggregate c, cat => ((cat.aggregate c).map .documents, cat)
  | .count c, cat => ((cat.count c).map .number, cat)
  | .insert fresh c, cat => ((cat.insert fresh c).1.map .number, (cat.insert fresh c).2)
  | .update c, cat => ((cat.update c).1.map .updated, (cat.update c).2)
  | .delete c, cat => ((cat.delete c).1.map .number, (cat.delete c).2)
  | .createIndexes c, cat =>
    ((cat.createIndexes c).1.map fun () => .done, (cat.createIndexes c).2)
  | .drop name, cat => ((cat.drop name).1.map fun () => .done, (cat.drop name).2)

/-- The replies to several operations in order, and the catalog after them. -/
def onAll [RegexEngine] : List Operation → Catalog → List Reply × Catalog
  | [], cat => ([], cat)
  | o :: os, cat =>
    let (replies, last) := onAll os (o.on cat).2
    ((o.on cat).1 :: replies, last)

end Operation

/-! ### Requests to a store -/

/-- What a store can be asked for. -/
inductive Request where
  /-- Run an operation on the catalog of a handle. -/
  | command (h : Handle) (o : Operation)
  /-- Start a transaction from a handle. -/
  | start (h : Handle)
  /-- Commit the transaction of that number. -/
  | commit (n : Nat)
  /-- Abort the transaction of that number. -/
  | abort (n : Nat)

namespace Request

/-- The handle that a request is made on. -/
def handle : Request → Handle
  | .command h _ => h
  | .start h => h
  | .commit n => .transaction n
  | .abort n => .transaction n

/-- Whether a request asks to finish the transaction of that number. -/
def finishes (n : Nat) : Request → Bool
  | .commit m => m = n
  | .abort m => m = n
  | _ => false

/-- The operation of a request, if it is one on the given handle. -/
def operationOn? (h : Handle) : Request → Option Operation
  | .command h' o => if h' = h then some o else none
  | _ => none

end Request

namespace Store

/-- Serve a request. -/
def perform [RegexEngine] (s : Store) : Request → Reply × Store
  | .command h (.find c) => ((s.find h c).1.map .documents, (s.find h c).2)
  | .command h (.aggregate c) => ((s.aggregate h c).1.map .documents, (s.aggregate h c).2)
  | .command h (.count c) => ((s.count h c).1.map .number, (s.count h c).2)
  | .command h (.insert fresh c) =>
    ((s.insert h fresh c).1.map .number, (s.insert h fresh c).2)
  | .command h (.update c) => ((s.update h c).1.map .updated, (s.update h c).2)
  | .command h (.delete c) => ((s.delete h c).1.map .number, (s.delete h c).2)
  | .command h (.createIndexes c) =>
    ((s.createIndexes h c).1.map fun () => .done, (s.createIndexes h c).2)
  | .command h (.drop name) => ((s.drop h name).1.map fun () => .done, (s.drop h name).2)
  | .start h => ((s.start h).1.map .number, (s.start h).2)
  | .commit n => ((s.commit n).1.map fun () => .done, (s.commit n).2)
  | .abort n => ((s.abort n).1.map fun () => .done, (s.abort n).2)

/-- The store after a run of requests. -/
def after [RegexEngine] (s : Store) (rs : List Request) : Store :=
  rs.foldl (fun s r => (s.perform r).2) s

/-- The replies that the operations on one handle get over a run of requests. -/
def heard [RegexEngine] (h : Handle) : List Request → Store → List Reply
  | [], _ => []
  | r :: rs, s =>
    match r.operationOn? h with
    | some _ => (s.perform r).1 :: heard h rs (s.perform r).2
    | none => heard h rs (s.perform r).2

/-! ### What one request does -/

@[simp] theorem after_nil [RegexEngine] (s : Store) : s.after [] = s := rfl

@[simp] theorem after_cons [RegexEngine] (s : Store) (r : Request) (rs : List Request) :
    s.after (r :: rs) = (s.perform r).2.after rs := rfl

@[simp] theorem catalog?_record (h : Handle) (command : Command) (s : Store) :
    (s.record command).catalog? h = s.catalog? h := rfl

/-- Writing back the catalog that a handle works on changes nothing. -/
private theorem withCatalog_of_catalog? {s : Store} {h : Handle} {cat : Catalog}
    (hcat : s.catalog? h = some cat) : s.withCatalog h cat = s := by
  cases h with
  | base =>
    obtain rfl : s.committed = cat := Option.some.inj hcat
    rfl
  | transaction n =>
    have hn : s.working[n]? = some (some cat) := Option.join_eq_some_iff.mp hcat
    obtain ⟨hlt, hget⟩ := List.getElem?_eq_some_iff.mp hn
    have hset : s.working.set n (some cat) = s.working := by
      rw [← hget, List.set_getElem_self]
    simp only [withCatalog, hset]

/-- A handle with a catalog works on the one that was last written to it. -/
theorem catalog?_withCatalog_self {s : Store} {h : Handle} {cat : Catalog}
    (hcat : s.catalog? h = some cat) (cat' : Catalog) :
    (s.withCatalog h cat').catalog? h = some cat' := by
  cases h with
  | base => rfl
  | transaction n =>
    have hn : s.working[n]? = some (some cat) := Option.join_eq_some_iff.mp hcat
    obtain ⟨hlt, -⟩ := List.getElem?_eq_some_iff.mp hn
    simp [catalog?, withCatalog, hlt]

/-- Writing to the catalog of one handle leaves those of the others. -/
theorem catalog?_withCatalog_of_ne (s : Store) {h h' : Handle} (hne : h ≠ h') (cat : Catalog) :
    (s.withCatalog h cat).catalog? h' = s.catalog? h' := by
  cases h <;> cases h' <;> simp_all [catalog?, withCatalog]

/-- **An operation on a handle.** With a catalog to work on, it answers what the catalog alone
answers and leaves the catalog that is left there; without one it is refused. It is recorded in
either case. -/
theorem perform_command [RegexEngine] (s : Store) (h : Handle) (o : Operation) :
    s.perform (.command h o) =
      match s.catalog? h with
      | none => (.error .transactionFinished, s.record o.command)
      | some cat => ((o.on cat).1, (s.record o.command).withCatalog h (o.on cat).2) := by
  rcases hcat : s.catalog? h with _ | cat
  · cases o <;>
      simp [perform, find, aggregate, count, insert, update, delete, createIndexes, drop, ask, run,
        hcat, Operation.command, Except.map]
  · have hread : ∀ command, (s.record command).withCatalog h cat = s.record command :=
      fun command => withCatalog_of_catalog? (by rw [catalog?_record, hcat])
    cases o <;>
      simp [perform, find, aggregate, count, insert, update, delete, createIndexes, drop, ask, run,
        hcat, hread, Operation.command, Operation.on]

/-- An operation is recorded as one command, whatever becomes of it. -/
theorem journal_perform_command [RegexEngine] (s : Store) (h : Handle) (o : Operation) :
    (s.perform (.command h o)).2.journal = s.journal ++ [o.command] := by
  rw [perform_command]
  rcases s.catalog? h with _ | cat
  · rfl
  · cases h <;> rfl

/-- An operation that leaves every catalog as it is does nothing but enter the journal. -/
theorem perform_of_reads [RegexEngine] {o : Operation} (hreads : ∀ cat, (o.on cat).2 = cat)
    (s : Store) (h : Handle) : (s.perform (.command h o)).2 = s.record o.command := by
  rw [perform_command]
  rcases hcat : s.catalog? h with _ | cat
  · rfl
  · change (s.record o.command).withCatalog h (o.on cat).2 = _
    rw [hreads]
    exact withCatalog_of_catalog? (by rw [catalog?_record, hcat])

/-- A transaction that is started works on the committed catalog, under the next number. -/
theorem perform_start_base [RegexEngine] (s : Store) :
    s.perform (.start .base) =
      (.ok (.number s.working.length),
        { s.record .startTransaction with working := s.working ++ [some s.committed] }) := rfl

/-- A commit installs the working copy of an open transaction and closes it. -/
theorem perform_commit [RegexEngine] (s : Store) (n : Nat) :
    s.perform (.commit n) =
      match s.catalog? (.transaction n) with
      | none => (.error .transactionFinished, s.record .commitTransaction)
      | some cat =>
        (.ok .done,
          { s.record .commitTransaction with
            committed := cat, working := s.working.set n none }) := by
  rcases hn : s.working[n]?.join with _ | cat <;>
    simp [perform, commit, catalog?, record, hn, Except.map]

/-- An abort closes an open transaction and installs nothing. -/
theorem perform_abort [RegexEngine] (s : Store) (n : Nat) :
    s.perform (.abort n) =
      match s.catalog? (.transaction n) with
      | none => (.error .transactionFinished, s.record .abortTransaction)
      | some _ =>
        (.ok .done, { s.record .abortTransaction with working := s.working.set n none }) := by
  rcases hn : s.working[n]?.join with _ | cat <;>
    simp [perform, abort, catalog?, record, hn, Except.map]

/-! ### Properties of all catalogs -/

/-- Every catalog that a handle can work on has a property. -/
def Everywhere (p : Catalog → Prop) (s : Store) : Prop := ∀ h cat, s.catalog? h = some cat → p cat

variable {p : Catalog → Prop} {s : Store}

/-- An empty store has one catalog, without collections. -/
theorem everywhere_empty (h : p .empty) : Store.empty.Everywhere p := by
  rintro (_ | n) cat hcat
  · obtain rfl : Catalog.empty = cat := Option.some.inj hcat
    exact h
  · simp [catalog?, empty] at hcat

/-- Finishing a transaction adds no catalog to those that handles work on, but for the one that a
commit installs. -/
private theorem everywhere_finish {n : Nat} {j : List Command} {c : Catalog} (hs : s.Everywhere p)
    (hc : p c) :
    Everywhere p { committed := c, working := s.working.set n none, journal := j } := by
  rintro (_ | m) cat hcat
  · obtain rfl : c = cat := Option.some.inj hcat
    exact hc
  · refine hs (.transaction m) cat ?_
    simp only [catalog?, List.getElem?_set] at hcat ⊢
    split at hcat
    · split at hcat <;> simp at hcat
    · exact hcat

/-- **One request** keeps a property of all catalogs if the operation that it may carry keeps it:
a catalog is changed by operations alone, or copied as a whole. -/
theorem everywhere_perform [RegexEngine] (hs : s.Everywhere p) (r : Request)
    (hr : ∀ h o, r = .command h o → ∀ cat, p cat → p (o.on cat).2) :
    (s.perform r).2.Everywhere p := by
  cases r with
  | command h o =>
    rw [perform_command]
    rcases hcat : s.catalog? h with _ | cat
    · exact hs
    · rintro h' cat' hcat'
      by_cases hh : h = h'
      · subst hh
        rw [catalog?_withCatalog_self (by rwa [catalog?_record])] at hcat'
        obtain rfl : (o.on cat).2 = cat' := Option.some.inj hcat'
        exact hr h o rfl cat (hs h cat hcat)
      · rw [catalog?_withCatalog_of_ne _ hh, catalog?_record] at hcat'
        exact hs h' cat' hcat'
  | start h =>
    cases h with
    | transaction n => exact hs
    | base =>
      rw [perform_start_base]
      rintro (_ | n) cat hcat
      · exact hs .base cat hcat
      · simp only [catalog?, List.getElem?_append] at hcat
        split at hcat
        · exact hs (.transaction n) cat hcat
        -- The copy that is taken is the committed catalog, which has the property already.
        · obtain ⟨o, ho, heq⟩ : ∃ o, [some s.committed][n - s.working.length]? = some o ∧
              o = some cat := ⟨_, Option.join_eq_some_iff.mp hcat, rfl⟩
          have hnew : o = some s.committed := by simpa using List.mem_of_getElem? ho
          exact hs .base cat (by rw [← heq, hnew]; rfl)
  | commit n =>
    rw [perform_commit]
    split
    · exact hs
    · next cat hcat => exact everywhere_finish hs (hs _ cat hcat)
  | abort n =>
    rw [perform_abort]
    split
    · exact hs
    · exact everywhere_finish hs (hs .base _ rfl)

end Store

end DocQuery
