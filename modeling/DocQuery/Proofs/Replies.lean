import DocQuery.Database
import DocQuery.Proofs.Requests

/-!
# Replies of a sound connection

A sound connection on a handle that has a catalog to work on loses nothing: what the catalog answers
to a command arrives as it is, an error of the store as the error of the call, and the command is
recorded. The lemmas say this once for each kind of command, and for each plan that a query can
have, with the server after a command that writes.
-/

namespace DocQuery

namespace Store

variable {s : Store} {h : Handle} {cat : Catalog}

/-- A command that reads is answered by the catalog of its handle. -/
private theorem ask_of_catalog? {α : Type} (hcat : s.catalog? h = some cat)
    (f : Catalog → Except StoreError α) (command : Command) :
    (s.record command).ask h f = (f cat, s.record command) := by
  rw [ask, catalog?_record, hcat]

/-- A command that writes is answered by the catalog of its handle, and replaces it. -/
theorem run_of_catalog? {α : Type} (hcat : s.catalog? h = some cat)
    (f : Catalog → Except StoreError α × Catalog) (command : Command) :
    (s.record command).run h f =
      ((f cat).1, (s.record command).withCatalog h (f cat).2) := by
  rw [run, catalog?_record, hcat]

/-- A command that writes leaves its catalog on its handle, and the other handles as they are. -/
theorem catalog?_written (hcat : s.catalog? h = some cat) (command : Command) (cat' : Catalog) :
    ((s.record command).withCatalog h cat').catalog? h = some cat' ∧
      ∀ h' ≠ h, ((s.record command).withCatalog h cat').catalog? h' = s.catalog? h' := by
  have hrecorded : (s.record command).catalog? h = some cat := by rw [catalog?_record, hcat]
  exact ⟨catalog?_withCatalog_self hrecorded cat',
    fun h' hne => catalog?_withCatalog_of_ne (s.record command) (Ne.symm hne) cat'⟩

end Store

namespace Outcome

variable {e : Error}

/-- The outcome of a read whose documents arrive one by one: a row for each, or the error of the
store and no row. -/
def ofRead (row : Document → Row) : Except StoreError (List Document) → Outcome
  | .ok ds => ⟨ds.map row, .ok ()⟩
  | .error e => .failure (.store e)

/-- The outcome of a read that is reduced to one row, or the error of the store. -/
def ofReduced (row : List Document → Row) : Except StoreError (List Document) → Outcome
  | .ok ds => .single (row ds)
  | .error e => .failure (.store e)

theorem ofRead_error {row : Document → Row} {reply : Except StoreError (List Document)}
    (h : (ofRead row reply).ending = .error e) :
    ∃ cause, e = .store cause ∧ reply = .error cause := by
  rcases reply with cause | ds
  · exact ⟨cause, (Except.error.inj h).symm, rfl⟩
  · cases h

theorem ofReduced_error {row : List Document → Row} {reply : Except StoreError (List Document)}
    (h : (ofReduced row reply).ending = .error e) :
    ∃ cause, e = .store cause ∧ reply = .error cause := by
  rcases reply with cause | ds
  · exact ⟨cause, (Except.error.inj h).symm, rfl⟩
  · cases h

theorem ofCount_error {reply : Except StoreError Nat}
    (h : (ofCount (reply.mapError .store)).ending = .error e) :
    ∃ cause, e = .store cause ∧ reply = .error cause := by
  rcases reply with cause | n
  · exact ⟨cause, (Except.error.inj h).symm, rfl⟩
  · cases h

end Outcome

namespace Connection

variable {c : Connection} {s : Server} {cat : Catalog}

/-- A sound connection delivers all documents of a reply. -/
theorem deliver_of_sound (hsound : c.faults = none) (row : Document → Row)
    (reply : Except StoreError (List Document)) :
    Outcome.ofDelivery row (c.deliver (reply.mapError .store)) = .ofRead row reply := by
  rcases reply with e | ds
  · rfl
  · change Outcome.ofDelivery row (c.deliver (.ok ds)) = _
    simp only [deliver, hsound, Option.bind_none, Outcome.ofDelivery, Outcome.ofRead]

/-- Reducing what a sound connection delivers reduces all documents of a reply. -/
private theorem reduce_of_sound (hsound : c.faults = none) (row : List Document → Row)
    (reply : Except StoreError (List Document)) :
    Outcome.reduce row (c.deliver (reply.mapError .store)) = .ofReduced row reply := by
  rcases reply with e | ds
  · rfl
  · change Outcome.reduce row (c.deliver (.ok ds)) = _
    simp only [deliver, hsound, Option.bind_none, Outcome.reduce, Outcome.ofReduced]

variable (hcat : s.store.catalog? c.handle = some cat)

include hcat

theorem find_eq [RegexEngine] (command : FindCommand) :
    c.find command s =
      (c.deliver ((cat.find command).mapError .store),
        { s with store := s.store.record (.find command) }) := by
  rw [find, Server.run, Store.find, Store.ask_of_catalog? hcat]

theorem aggregate_eq [RegexEngine] (command : AggregateCommand) :
    c.aggregate command s =
      (c.deliver ((cat.aggregate command).mapError .store),
        { s with store := s.store.record (.aggregate command) }) := by
  rw [aggregate, Server.run, Store.aggregate, Store.ask_of_catalog? hcat]

theorem count_eq [RegexEngine] (command : CountCommand) :
    c.count command s =
      ((cat.count command).mapError .store,
        { s with store := s.store.record (.count command) }) := by
  rw [count, Server.run, Store.count, Store.ask_of_catalog? hcat]

theorem update_eq [RegexEngine] (command : UpdateCommand) :
    c.update command s =
      ((cat.update command).1.mapError .store,
        { s with
          store := (s.store.record (.update command)).withCatalog c.handle
            (cat.update command).2 }) := by
  rw [update, Server.run, Store.update, Store.run_of_catalog? hcat]

theorem delete_eq [RegexEngine] (command : DeleteCommand) :
    c.delete command s =
      ((cat.delete command).1.mapError .store,
        { s with
          store := (s.store.record (.delete command)).withCatalog c.handle
            (cat.delete command).2 }) := by
  rw [delete, Server.run, Store.delete, Store.run_of_catalog? hcat]

theorem createIndexes_eq (command : IndexCommand) :
    c.createIndexes command s =
      ((cat.createIndexes command).1.mapError .store,
        { s with
          store := (s.store.record (.createIndexes command)).withCatalog c.handle
            (cat.createIndexes command).2 }) := by
  rw [createIndexes, Server.run, Store.createIndexes, Store.run_of_catalog? hcat]

/-- The identities of an insertion are the next ones of the server. -/
theorem insert_eq (hsound : c.faults = none) (command : InsertCommand) :
    c.insert command s =
      ((cat.insert (fun i => Server.identity (s.issued + i)) command).1.mapError .store,
        { store := (s.store.record (.insert command)).withCatalog c.handle
            (cat.insert (fun i => Server.identity (s.issued + i)) command).2
          issued := s.issued + command.documents.length }) := by
  rw [insert, Server.run, Store.insert, Store.run_of_catalog? hcat, hsound]
  rcases (cat.insert (fun i => Server.identity (s.issued + i)) command).1 with e | n
  · rfl
  · rfl

end Connection

/-! ### Plans -/

/-- The operation that a plan sends. -/
def QueryPlan.operation (fresh : Nat → ObjectId) : QueryPlan → Operation
  | .insert c => .insert fresh c
  | .find _ c => .find c
  | .join c _ => .aggregate c
  | .update c => .update c
  | .delete c => .delete c
  | .count c => .count c
  | .joinCount c => .aggregate c
  | .group c => .aggregate c

namespace Database

variable [RegexEngine]

/-- Running a plan has the store serve the operation of the plan, and nothing else. The identities
of an insertion are the next ones of the server. -/
theorem store_run (db : Database) (plan : QueryPlan) (s : Server) :
    (db.run plan s).2.store =
      (s.store.perform (.command db.connection.handle
        (plan.operation fun i => Server.identity (s.issued + i)))).2 := by
  cases plan <;> rfl

variable {db : Database} {s : Server} {cat : Catalog}

/-- A query that ends well was compiled to a plan, which was run. -/
theorem exists_plan_of_ending {q : Query} (h : (db.execute q s).1.ending = .ok ()) :
    ∃ plan, q.compile = .ok plan ∧ db.execute q s = db.run plan s := by
  rw [execute] at h ⊢
  rcases hplan : q.compile with e | plan <;> rw [hplan] at h
  · cases h
  · exact ⟨plan, rfl, rfl⟩

variable (hcat : s.store.catalog? db.connection.handle = some cat)

include hcat

theorem run_insert (hsound : db.connection.faults = none) (command : InsertCommand) :
    db.run (.insert command) s =
      (.ofInsert command.documents.length
          ((cat.insert (fun i => Server.identity (s.issued + i)) command).1.mapError .store),
        { store := (s.store.record (.insert command)).withCatalog db.connection.handle
            (cat.insert (fun i => Server.identity (s.issued + i)) command).2
          issued := s.issued + command.documents.length }) := by
  rw [run]
  dsimp only
  rw [Connection.insert_eq hcat hsound]

theorem run_find (hsound : db.connection.faults = none) (schema : String) (command : FindCommand) :
    (db.run (.find schema command) s).1 = .ofRead (Row.ofDocument schema) (cat.find command) := by
  rw [run]
  dsimp only
  rw [Connection.find_eq hcat, Connection.deliver_of_sound hsound]

theorem run_join (hsound : db.connection.faults = none) (command : AggregateCommand)
    (layout : RowLayout) :
    (db.run (.join command layout) s).1 =
      .ofRead (Row.ofJoined layout) (cat.aggregate command) := by
  rw [run]
  dsimp only
  rw [Connection.aggregate_eq hcat, Connection.deliver_of_sound hsound]

theorem run_update (command : UpdateCommand) :
    db.run (.update command) s =
      (.ofCount (((cat.update command).1.mapError .store).map (·.modified)),
        { s with
          store := (s.store.record (.update command)).withCatalog db.connection.handle
            (cat.update command).2 }) := by
  rw [run]
  dsimp only
  rw [Connection.update_eq hcat]

theorem run_delete (command : DeleteCommand) :
    db.run (.delete command) s =
      (.ofCount ((cat.delete command).1.mapError .store),
        { s with
          store := (s.store.record (.delete command)).withCatalog db.connection.handle
            (cat.delete command).2 }) := by
  rw [run]
  dsimp only
  rw [Connection.delete_eq hcat]

theorem run_count (command : CountCommand) :
    (db.run (.count command) s).1 = .ofCount ((cat.count command).mapError .store) := by
  rw [run]
  dsimp only
  rw [Connection.count_eq hcat]

theorem run_joinCount (hsound : db.connection.faults = none) (command : AggregateCommand) :
    (db.run (.joinCount command) s).1 =
      .ofReduced (fun ds => .ofCount ds.length) (cat.aggregate command) := by
  rw [run]
  dsimp only
  rw [Connection.aggregate_eq hcat, Connection.reduce_of_sound hsound]

theorem run_group (hsound : db.connection.faults = none) (command : AggregateCommand) :
    (db.run (.group command) s).1 =
      .ofReduced (fun ds => .aggregate (reducedValue ds)) (cat.aggregate command) := by
  rw [run]
  dsimp only
  rw [Connection.aggregate_eq hcat, Connection.reduce_of_sound hsound]

end Database

end DocQuery
