import DocQuery.Database
import DocQuery.Proofs.Requests

/-!
# Transactions are all or nothing

The body of a transaction is any program that works on the handle it is given (`Body`): a tree of
queries, schema operations and nested calls, in which what comes next may depend on every outcome
so far, failures included. `Body.run` runs it on a handle, and `Database.transactionally` inside a
transaction. The reference is `Body.alone`, which runs the same calls in order on the committed
catalog of a server of its own and knows no transactions.

The main theorem, `Database.all_or_nothing`, compares a transaction with the reference on a copy of
the committed catalog: the result, the committed catalog and the journal are what the reference and
the ending say. Its proof is a simulation (`Server.Mirrors`): while the body runs, the working copy
of the transaction is the catalog of the reference, the committed catalog stays, and the journal
grows by the same commands. Each call keeps this and has the same outcome, and an induction on the
body extends it to the whole run.
-/

namespace DocQuery

/-! ### Bodies -/

/-- What is run on a handle, up to a value or an error. -/
inductive Body : Type → Type 1 where
  | done {α : Type} (result : Except Error α) : Body α
  /-- Execute a query; the rows delivered before an error are seen. -/
  | query {α : Type} (q : Query) (next : Outcome → Body α) : Body α
  | schema {α : Type} (o : SchemaOperation) (next : Except Error Unit → Body α) : Body α
  /-- Run a body inside a transaction of the handle. -/
  | transaction {α β : Type} (inner : Body β) (next : Except Error β → Body α) : Body α
  /-- Run a body on a connection of the handle. -/
  | connection {α β : Type} (inner : Body β) (next : Except Error β → Body α) : Body α

/-- Run something that keeps no state inside a transaction. -/
def Database.transactionally {α : Type} (db : Database)
    (body : Database → Server → Except Error α × Server) (s : Server) : Except Error α × Server :=
  let run := fun (handle : Database) (_ : Unit) s => ((body handle s).1, (), (body handle s).2)
  ((db.transaction run () s).1, (db.transaction run () s).2.2)

namespace Body

/-- Run a body on a handle. -/
def run [RegexEngine] {α : Type} : Body α → Database → Server → Except Error α × Server
  | .done result, _, s => (result, s)
  | .query q next, db, s =>
    let (o, s) := db.execute q s
    (next o).run db s
  | .schema o next, db, s =>
    let (r, s) := db.executeSchema o s
    (next r).run db s
  | .transaction inner next, db, s =>
    let (r, s) := db.transactionally (fun handle s => inner.run handle s) s
    (next r).run db s
  | .connection inner next, db, s =>
    let (r, s) := db.withConnection (fun handle s => inner.run handle s) s
    (next r).run db s

/-- Run a body where there are no transactions: nested calls run in their place. -/
def alone [RegexEngine] {α : Type} (db : Database) : Body α → Server → Except Error α × Server
  | .done result, s => (result, s)
  | .query q next, s =>
    let (o, s) := db.execute q s
    (next o).alone db s
  | .schema o next, s =>
    let (r, s) := db.executeSchema o s
    (next r).alone db s
  | .transaction inner next, s =>
    let (r, s) := inner.alone db s
    (next r).alone db s
  | .connection inner next, s =>
    let (r, s) := inner.alone db s
    (next r).alone db s

end Body

/-- A server of its own with a copy of the committed catalog. -/
def Server.copy (s : Server) : Server := ⟨⟨s.store.committed, [], []⟩, s.issued⟩

/-! ### Mirrored stores -/

/-- Whether a command starts or finishes a transaction. -/
def Command.isControl : Command → Bool
  | .startTransaction => true
  | .commitTransaction => true
  | .abortTransaction => true
  | _ => false

/-- A transaction of one store works on what another store has committed, while the first keeps its
own committed catalog; beyond a beginning, both have recorded the same commands, none of which
starts or finishes a transaction. -/
structure Store.Mirrors (n : Nat) (committed : Catalog) (begun : List Command) (s p : Store) :
    Prop where
  working_eq : s.catalog? (.transaction n) = some p.committed
  committed_eq : s.committed = committed
  journal_eq : s.journal = begun ++ p.journal
  plain : ∀ command ∈ p.journal, command.isControl = false

/-- The same for servers, which have also supplied equally many identities. -/
structure Server.Mirrors (n : Nat) (committed : Catalog) (begun : List Command) (s p : Server) :
    Prop where
  store : s.store.Mirrors n committed begun p.store
  issued_eq : s.issued = p.issued

/-- Two calls have the same outcome and leave mirrored servers. -/
def Server.Tracks {α : Type} (n : Nat) (committed : Catalog) (begun : List Command)
    (x y : α × Server) : Prop :=
  x.1 = y.1 ∧ x.2.Mirrors n committed begun y.2

section Simulation

variable {n : Nat} {committed : Catalog} {begun : List Command}

/-- What is made of the outcome alone is the same on both sides. -/
private theorem Server.Tracks.map {α β : Type} {x y : α × Server} (h : Tracks n committed begun x y)
    (f : α → β) : Tracks n committed begun (f x.1, x.2) (f y.1, y.2) := by
  obtain ⟨hreply, hmirrors⟩ := h
  exact ⟨congrArg f hreply, hmirrors⟩

/-- Recording one command on both sides keeps stores mirrored. -/
private theorem Store.Mirrors.record {s p : Store} (h : s.Mirrors n committed begun p)
    (command : Command) (hcommand : command.isControl = false) :
    (s.record command).Mirrors n committed begun (p.record command) := by
  refine ⟨h.working_eq, h.committed_eq, by simp [Store.record, h.journal_eq], fun c hc => ?_⟩
  rcases List.mem_append.mp hc with hc | hc
  · exact h.plain c hc
  · rwa [List.mem_singleton.mp hc]

/-- A command that reads has the same reply on a transaction and on its mirror. -/
private theorem Store.Mirrors.ask {α : Type} {s p : Store} (h : s.Mirrors n committed begun p)
    (f : Catalog → Except StoreError α) :
    (s.ask (.transaction n) f).1 = (p.ask .base f).1 ∧
      (s.ask (.transaction n) f).2.Mirrors n committed begun (p.ask .base f).2 := by
  simp only [Store.ask, h.working_eq]
  exact ⟨rfl, h⟩

/-- A command that writes has the same reply on a transaction and on its mirror, and writes the same
to the working copy of the one as to the committed catalog of the other. -/
private theorem Store.Mirrors.run {α : Type} {s p : Store} (h : s.Mirrors n committed begun p)
    (f : Catalog → Except StoreError α × Catalog) :
    (s.run (.transaction n) f).1 = (p.run .base f).1 ∧
      (s.run (.transaction n) f).2.Mirrors n committed begun (p.run .base f).2 := by
  simp only [Store.run, h.working_eq]
  exact ⟨rfl, Store.catalog?_withCatalog_self h.working_eq _, h.committed_eq, h.journal_eq,
    h.plain⟩

/-- Servers pass on what their stores do. -/
private theorem Server.Mirrors.run {α : Type} {s p : Server} (h : s.Mirrors n committed begun p)
    {f g : Store → Except StoreError α × Store}
    (hfg : (f s.store).1 = (g p.store).1 ∧
      (f s.store).2.Mirrors n committed begun (g p.store).2) :
    Tracks n committed begun (s.run f) (p.run g) :=
  ⟨congrArg (Except.mapError Error.store) hfg.1, hfg.2, h.issued_eq⟩

/-! ### Each call tracks -/

variable {s p : Server} (h : s.Mirrors n committed begun p) (faults : Option Faults)
include h

private theorem Connection.tracks_find [RegexEngine] (command : FindCommand) :
    Server.Tracks n committed begun (find ⟨.transaction n, faults⟩ command s)
      (find ⟨.base, faults⟩ command p) := by
  have hrun : Server.Tracks n committed begun (s.run (Store.find (.transaction n) command))
      (p.run (Store.find .base command)) :=
    h.run ((h.store.record (.find command) rfl).ask (Catalog.find command))
  exact hrun.map (deliver ⟨.base, faults⟩)

private theorem Connection.tracks_aggregate [RegexEngine] (command : AggregateCommand) :
    Server.Tracks n committed begun (aggregate ⟨.transaction n, faults⟩ command s)
      (aggregate ⟨.base, faults⟩ command p) := by
  have hrun : Server.Tracks n committed begun (s.run (Store.aggregate (.transaction n) command))
      (p.run (Store.aggregate .base command)) :=
    h.run ((h.store.record (.aggregate command) rfl).ask (Catalog.aggregate command))
  exact hrun.map (deliver ⟨.base, faults⟩)

private theorem Connection.tracks_insert (command : InsertCommand) :
    Server.Tracks n committed begun (insert ⟨.transaction n, faults⟩ command s)
      (insert ⟨.base, faults⟩ command p) := by
  let fresh := fun i => Server.identity (s.issued + i)
  have hrun : Server.Tracks n committed begun (s.run (Store.insert (.transaction n) fresh command))
      (p.run (Store.insert .base fresh command)) :=
    h.run ((h.store.record (.insert command) rfl).run (Catalog.insert fresh command))
  -- Both servers have given out as many identities, so the next ones are the same.
  rw [Connection.insert, Connection.insert, ← h.issued_eq]
  obtain ⟨hreply, hmirrors⟩ := hrun
  exact ⟨congrArg (Except.map (· - (faults.map (·.shortAck)).getD 0)) hreply, hmirrors.store,
    congrArg (· + command.documents.length) hmirrors.issued_eq⟩

private theorem Connection.tracks_update [RegexEngine] (command : UpdateCommand) :
    Server.Tracks n committed begun (update ⟨.transaction n, faults⟩ command s)
      (update ⟨.base, faults⟩ command p) :=
  h.run ((h.store.record (.update command) rfl).run (Catalog.update command))

private theorem Connection.tracks_delete [RegexEngine] (command : DeleteCommand) :
    Server.Tracks n committed begun (delete ⟨.transaction n, faults⟩ command s)
      (delete ⟨.base, faults⟩ command p) :=
  h.run ((h.store.record (.delete command) rfl).run (Catalog.delete command))

private theorem Connection.tracks_count [RegexEngine] (command : CountCommand) :
    Server.Tracks n committed begun (count ⟨.transaction n, faults⟩ command s)
      (count ⟨.base, faults⟩ command p) :=
  h.run ((h.store.record (.count command) rfl).ask (Catalog.count command))

private theorem Connection.tracks_createIndexes (command : IndexCommand) :
    Server.Tracks n committed begun (createIndexes ⟨.transaction n, faults⟩ command s)
      (createIndexes ⟨.base, faults⟩ command p) :=
  h.run ((h.store.record (.createIndexes command) rfl).run (Catalog.createIndexes command))

private theorem Connection.tracks_drop (name : String) :
    Server.Tracks n committed begun (drop ⟨.transaction n, faults⟩ name s)
      (drop ⟨.base, faults⟩ name p) :=
  h.run ((h.store.record (.drop name) rfl).run (Catalog.drop name))

/-- Running a plan tracks, since it sends one command. -/
private theorem Database.tracks_run [RegexEngine] (plan : QueryPlan) (b b' : Bool) :
    Server.Tracks n committed begun (run ⟨⟨.transaction n, faults⟩, b⟩ plan s)
      (run ⟨⟨.base, faults⟩, b'⟩ plan p) := by
  cases plan with
  | insert command =>
    have hsent := Connection.tracks_insert h faults command
    exact hsent.map (Outcome.ofInsert command.documents.length)
  | find schema command =>
    have hsent := Connection.tracks_find h faults command
    exact hsent.map (Outcome.ofDelivery (Row.ofDocument schema))
  | join command layout =>
    have hsent := Connection.tracks_aggregate h faults command
    exact hsent.map (Outcome.ofDelivery (Row.ofJoined layout))
  | update command =>
    have hsent := Connection.tracks_update h faults command
    exact hsent.map fun reply => Outcome.ofCount (reply.map UpdateReply.modified)
  | delete command =>
    have hsent := Connection.tracks_delete h faults command
    exact hsent.map Outcome.ofCount
  | count command =>
    have hsent := Connection.tracks_count h faults command
    exact hsent.map Outcome.ofCount
  | joinCount command =>
    have hsent := Connection.tracks_aggregate h faults command
    exact hsent.map (Outcome.reduce fun ds => .ofCount ds.length)
  | group command =>
    have hsent := Connection.tracks_aggregate h faults command
    exact hsent.map (Outcome.reduce fun ds => .aggregate (reducedValue ds))

/-- Executing a query tracks; one that does not compile sends nothing on either side. -/
private theorem Database.tracks_execute [RegexEngine] (q : Query) (b b' : Bool) :
    Server.Tracks n committed begun (execute ⟨⟨.transaction n, faults⟩, b⟩ q s)
      (execute ⟨⟨.base, faults⟩, b'⟩ q p) := by
  unfold execute
  rcases q.compile with e | plan
  · exact ⟨rfl, h⟩
  · exact Database.tracks_run h faults plan b b'

/-- Creating indexes command by command tracks, up to the first command that fails on both sides. -/
private theorem Database.tracks_createEach (commands : List IndexCommand) (b b' : Bool) :
    Server.Tracks n committed begun (createEach ⟨⟨.transaction n, faults⟩, b⟩ commands s)
      (createEach ⟨⟨.base, faults⟩, b'⟩ commands p) := by
  induction commands generalizing s p with
  | nil => exact ⟨rfl, h⟩
  | cons command rest ih =>
    obtain ⟨hreply, hmirrors⟩ := Connection.tracks_createIndexes h faults command
    simp only [createEach]
    rcases hs : Connection.createIndexes ⟨.transaction n, faults⟩ command s with ⟨r, s'⟩
    rcases hp : Connection.createIndexes ⟨.base, faults⟩ command p with ⟨r', p'⟩
    rw [hs, hp] at hreply hmirrors
    obtain rfl : r = r' := hreply
    rcases r with e | u
    · exact ⟨rfl, hmirrors⟩
    · exact ih hmirrors

/-- Executing a schema operation tracks. -/
private theorem Database.tracks_executeSchema (o : SchemaOperation) (b b' : Bool) :
    Server.Tracks n committed begun (executeSchema ⟨⟨.transaction n, faults⟩, b⟩ o s)
      (executeSchema ⟨⟨.base, faults⟩, b'⟩ o p) := by
  unfold executeSchema
  rcases o.compile with e | (commands | collection)
  · exact ⟨rfl, h⟩
  · exact Database.tracks_createEach h faults commands b b'
  · exact Connection.tracks_drop h faults collection

end Simulation

/-! ### Bodies track -/

/-- Inside a transaction, a nested transaction runs its body on the handle as it is. -/
private theorem Database.transactionally_of_inTransaction {α : Type} (c : Connection)
    (body : Database → Server → Except Error α × Server) (s : Server) :
    Database.transactionally ⟨c, true⟩ body s = body ⟨c, true⟩ s := rfl

/-- **The simulation.** A body that runs on the handle of a transaction has the same result as one
that runs alone on the mirror, and leaves mirrored servers. -/
theorem Body.tracks_run [RegexEngine] {n : Nat} {committed : Catalog} {begun : List Command}
    {α : Type} (body : Body α) (faults : Option Faults) (b : Bool) {s p : Server}
    (h : s.Mirrors n committed begun p) :
    Server.Tracks n committed begun (body.run ⟨⟨.transaction n, faults⟩, true⟩ s)
      (body.alone ⟨⟨.base, faults⟩, b⟩ p) := by
  -- Equal outcomes make both sides go on with the same rest of the body.
  induction body generalizing s p with
  | done result => exact ⟨rfl, h⟩
  | query q next ih =>
    obtain ⟨hreply, hmirrors⟩ := Database.tracks_execute h faults q true b
    simp only [run, alone]
    rw [hreply]
    exact ih _ hmirrors
  | schema o next ih =>
    obtain ⟨hreply, hmirrors⟩ := Database.tracks_executeSchema h faults o true b
    simp only [run, alone]
    rw [hreply]
    exact ih _ hmirrors
  | transaction inner next ih ihnext =>
    obtain ⟨hreply, hmirrors⟩ := ih h
    simp only [run, alone, Database.transactionally_of_inTransaction]
    rw [hreply]
    exact ihnext _ hmirrors
  | connection inner next ih ihnext =>
    obtain ⟨hreply, hmirrors⟩ := ih h
    simp only [run, alone, Database.withConnection]
    rw [hreply]
    exact ihnext _ hmirrors

/-! ### Starting and finishing -/

/-- A transaction that has just been started mirrors a server with a copy of what it copied. -/
private theorem Connection.start_base (faults : Option Faults) (s : Server) :
    ∃ t, start ⟨.base, faults⟩ s = (.ok ⟨.transaction s.store.working.length, faults⟩, t) ∧
      t.Mirrors s.store.working.length s.store.committed (s.store.journal ++ [.startTransaction])
        s.copy := by
  refine ⟨_, rfl, ⟨?_, rfl, ?_, ?_⟩, rfl⟩
  · simp [Store.catalog?, Store.record, Server.copy]
  · simp [Store.record, Server.copy]
  · simp [Server.copy]

/-- A commit that reaches the store installs what the mirror has committed. -/
private theorem Connection.commit_of_mirrors {n : Nat} {committed : Catalog} {begun : List Command}
    {s p : Server} (h : s.Mirrors n committed begun p) {faults : Option Faults}
    (hfaults : faults.bind (·.failCommit) = none) :
    (commit ⟨.transaction n, faults⟩ s).1 = .ok () ∧
      (commit ⟨.transaction n, faults⟩ s).2.store.committed = p.store.committed ∧
      (commit ⟨.transaction n, faults⟩ s).2.store.journal =
        s.store.journal ++ [.commitTransaction] := by
  have hworking : s.store.working[n]?.join = some p.store.committed :=
    h.store.working_eq
  have hstore : s.store.commit n =
      (.ok (), { s.store.record .commitTransaction with
        committed := p.store.committed, working := s.store.working.set n none }) := by
    simp [Store.commit, Store.record, hworking]
  have hrun : commit ⟨.transaction n, faults⟩ s = s.run (Store.commit n) := by
    simp only [commit, hfaults]
  rw [hrun, Server.run, hstore]
  exact ⟨rfl, rfl, rfl⟩

/-- A commit that is kept from the store changes nothing. -/
private theorem Connection.commit_of_failCommit {faults : Option Faults} {e : Error}
    (hfaults : faults.bind (·.failCommit) = some e) (n : Nat) (s : Server) :
    commit ⟨.transaction n, faults⟩ s = (.error e, s) := by
  simp only [commit, hfaults]

/-- An abort leaves the committed catalog and is recorded once, whatever it reports. -/
private theorem Connection.abort_store (faults : Option Faults) (n : Nat) (s : Server) :
    (abort ⟨.transaction n, faults⟩ s).2.store.committed = s.store.committed ∧
      (abort ⟨.transaction n, faults⟩ s).2.store.journal =
        s.store.journal ++ [.abortTransaction] := by
  simp only [abort, Server.run, Store.abort]
  rcases (s.store.record .abortTransaction).working[n]?.join with _ | cat
  · exact ⟨rfl, rfl⟩
  · rcases faults.bind (·.failAbort) with _ | e
    · exact ⟨rfl, rfl⟩
    · exact ⟨rfl, rfl⟩

section Endings

variable {α : Type} {db : Database} {c : Connection} {s t u : Server}
  {body : Database → Server → Except Error α × Server}

/-- A body that fails inside a transaction of its own is followed by an abort. -/
theorem Database.transactionally_of_error {e : Error} (hdb : db.inTransaction = false)
    (hstart : db.connection.start s = (.ok c, t)) (hbody : body ⟨c, true⟩ t = (.error e, u)) :
    db.transactionally body s = (.error e, (c.abort u).2) := by
  simp [transactionally, transaction, hdb, hstart, hbody]

/-- A body that succeeds is followed by a commit, after which its value is returned. -/
theorem Database.transactionally_of_commit {v : α} {w : Server} (hdb : db.inTransaction = false)
    (hstart : db.connection.start s = (.ok c, t)) (hbody : body ⟨c, true⟩ t = (.ok v, u))
    (hcommit : c.commit u = (.ok (), w)) : db.transactionally body s = (.ok v, w) := by
  simp [transactionally, transaction, hdb, hstart, hbody, hcommit]

/-- A commit that fails is followed by an abort, after which its error is returned. -/
theorem Database.transactionally_of_commit_error {v : α} {w : Server} {e : Error}
    (hdb : db.inTransaction = false) (hstart : db.connection.start s = (.ok c, t))
    (hbody : body ⟨c, true⟩ t = (.ok v, u)) (hcommit : c.commit u = (.error e, w)) :
    db.transactionally body s = (.error e, (c.abort w).2) := by
  simp [transactionally, transaction, hdb, hstart, hbody, hcommit]

end Endings

/-- **Transactions are all or nothing.** A body is run by `transaction` on a handle that is in none,
of a sound connection or a faulty one, and `Body.alone` is what it does on a copy of the committed
catalog. When it ends in a value and the commit succeeds, the value is returned and what it did to
the copy is committed; when the commit fails, its error is returned and nothing is committed; when
the body ends in an error, that error is returned and nothing is committed. The journal gains the
start, the commands of the body, and one commit or one abort. On a handle of the store that is bound
to a transaction already, none is started and the body does not run. -/
theorem Database.all_or_nothing [RegexEngine] {α : Type} (body : Body α) (faults : Option Faults)
    (s : Server) :
    let db : Database := ⟨⟨.base, faults⟩, false⟩
    let reference := body.alone db s.copy
    let outcome := db.transactionally body.run s
    let begun := s.store.journal ++ .startTransaction :: reference.2.store.journal
    (match reference.1, faults.bind (·.failCommit) with
      | .ok v, none =>
        outcome.1 = .ok v ∧ outcome.2.store.committed = reference.2.store.committed ∧
          outcome.2.store.journal = begun ++ [.commitTransaction]
      | .ok _, some e =>
        outcome.1 = .error e ∧ outcome.2.store.committed = s.store.committed ∧
          outcome.2.store.journal = begun ++ [.abortTransaction]
      | .error e, _ =>
        outcome.1 = .error e ∧ outcome.2.store.committed = s.store.committed ∧
          outcome.2.store.journal = begun ++ [.abortTransaction]) ∧
    (∀ command ∈ reference.2.store.journal, command.isControl = false) ∧
    ∀ m, Database.transactionally ⟨⟨.transaction m, faults⟩, false⟩ body.run s =
      (.error (.store .transactionInProgress), s) := by
  intro db reference outcome begun
  obtain ⟨t, hstart, hmirrors⟩ := Connection.start_base faults s
  obtain ⟨hresult, hafter⟩ := body.tracks_run faults false hmirrors
  refine ⟨?_, hafter.store.plain, fun m => rfl⟩
  have hreference : reference.1 = (body.run ⟨⟨.transaction _, faults⟩, true⟩ t).1 := hresult.symm
  rcases hrun : body.run ⟨⟨.transaction s.store.working.length, faults⟩, true⟩ t with ⟨r, u⟩
  rw [hrun] at hafter hreference
  have hjournal : u.store.journal = begun := by
    rw [hafter.store.journal_eq, List.append_assoc]
    rfl
  have hcommitted : u.store.committed = s.store.committed := hafter.store.committed_eq
  have habort := Connection.abort_store faults s.store.working.length u
  rw [hcommitted, hjournal] at habort
  rw [hreference]
  -- The body has ended; what remains is one abort, a commit, or a commit that fails and one abort.
  rcases r with e | v
  · have houtcome : outcome = _ := Database.transactionally_of_error rfl hstart hrun
    rw [houtcome]
    exact ⟨rfl, habort⟩
  · rcases hfaults : faults.bind (·.failCommit) with _ | e
    · obtain ⟨hok, hinstalled, hgrown⟩ := Connection.commit_of_mirrors hafter hfaults
      have houtcome : outcome = _ :=
        Database.transactionally_of_commit rfl hstart hrun (Prod.ext hok rfl)
      rw [houtcome]
      exact ⟨rfl, hinstalled, by rw [hgrown, hjournal]⟩
    · have hfails := Connection.commit_of_failCommit hfaults s.store.working.length u
      have houtcome : outcome = _ :=
        Database.transactionally_of_commit_error rfl hstart hrun hfails
      rw [houtcome]
      exact ⟨rfl, habort⟩

end DocQuery
