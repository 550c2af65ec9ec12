import DocQuery.Database

/-!
# Sessions

A session is a sequence of steps on one server, each with an answer. Steps run on a current
database, or on a transaction that an earlier step opened under a name. A step may itself be a
transaction with steps of its own; these run on its handle, and the first of them that fails,
unless it is marked to be ignored, ends the transaction.
-/

namespace DocQuery

/-- How a query is put to a database. -/
inductive QueryCall where
  /-- For all rows at once. -/
  | collect
  /-- For the rows one by one, so that those before an error are seen. -/
  | stream
  /-- On a connection, for all rows at once. -/
  | connection
deriving DecidableEq

/-- Where a step runs and whether its failure is passed over. -/
structure Placement where
  /-- The name of an open transaction; the current database without one. -/
  name : Option String
  ignore : Bool
deriving DecidableEq

/-- A step of a session. -/
inductive Step where
  | query (call : QueryCall) (q : Query)
  | schema (o : SchemaOperation)
  | find (c : FindCommand)
  | aggregate (c : AggregateCommand)
  | insert (c : InsertCommand)
  | update (c : UpdateCommand)
  | delete (c : DeleteCommand)
  | count (c : CountCommand)
  | createIndexes (c : IndexCommand)
  | drop (collection : String)
  /-- Look at the committed documents of a collection. -/
  | documents (collection : String)
  /-- Look at the committed indexes of a collection. -/
  | indexes (collection : String)
  | journal
  /-- Ask whether the handle is inside a transaction. -/
  | state
  | require (kind : StoreKind)
  /-- Open a transaction under a name. -/
  | start (name : String)
  | commit
  | abort
  /-- Run steps inside a transaction, and let its body fail after the last if told to. -/
  | transaction (steps : List (Placement × Step)) (fail : Bool)

/-- The answer to a step. -/
inductive Answer where
  | done
  | rows (rows : List Row)
  | documents (ds : List Document)
  | number (n : Nat)
  | updated (reply : UpdateReply)
  | indexes (definitions : List IndexDefinition)
  | journal (commands : List Command)
  | state (inTransaction : Bool)
  /-- A transaction that was committed, with the answers to its steps. -/
  | committed (answers : List Answer)
  /-- A failure, after the given rows. -/
  | failed (e : Error) (rows : List Row)
  /-- A transaction that failed, with the answers to its steps so far. -/
  | aborted (e : Error) (answers : List Answer)

/-- The error of an answer. -/
def Answer.error? : Answer → Option Error
  | .failed e _ => some e
  | .aborted e _ => some e
  | _ => none

/-- The answer to a call that returns a result. -/
def Answer.ofExcept {α : Type} (answer : α → Answer) : Except Error α → Answer
  | .ok x => answer x
  | .error e => .failed e []

/-- The answer to a query that reports its rows one by one. -/
def Answer.ofOutcome (o : Outcome) : Answer :=
  match o.ending with
  | .ok () => .rows o.rows
  | .error e => .failed e o.rows

/-- The answer to a call that delivers documents. -/
def Answer.ofDelivery (d : Delivery) : Answer :=
  match d.ending with
  | .ok () => .documents d.documents
  | .error e => .failed e []

/-- The transactions opened under names, the latest first. -/
abbrev OpenTransactions := List (String × Database)

/-- The database that a step runs on. -/
def Placement.database (p : Placement) (current : Database) (opened : OpenTransactions) :
    Database :=
  match p.name with
  | none => current
  | some name => (SortedMap.get? name opened).getD current

namespace Step

variable [RegexEngine]

/-- Run a query. -/
def runQuery (db : Database) (call : QueryCall) (q : Query) (s : Server) : Answer × Server :=
  match call with
  | .collect =>
    let (r, s) := db.query q s
    (.ofExcept .rows r, s)
  | .stream =>
    let (o, s) := db.execute q s
    (.ofOutcome o, s)
  | .connection =>
    let (r, s) := db.withConnection (fun c s => c.query q s) s
    (.ofExcept .rows r, s)

mutual

/-- Run a step on a database. -/
def run (db : Database) : Step → OpenTransactions → Server → Answer × OpenTransactions × Server
  | .query call q, opened, s =>
    let (a, s) := runQuery db call q s
    (a, opened, s)
  | .schema o, opened, s =>
    let (r, s) := db.executeSchema o s
    (.ofExcept (fun () => .done) r, opened, s)
  | .find c, opened, s =>
    let (d, s) := db.connection.find c s
    (.ofDelivery d, opened, s)
  | .aggregate c, opened, s =>
    let (d, s) := db.connection.aggregate c s
    (.ofDelivery d, opened, s)
  | .insert c, opened, s =>
    let (r, s) := db.connection.insert c s
    (.ofExcept .number r, opened, s)
  | .update c, opened, s =>
    let (r, s) := db.connection.update c s
    (.ofExcept .updated r, opened, s)
  | .delete c, opened, s =>
    let (r, s) := db.connection.delete c s
    (.ofExcept .number r, opened, s)
  | .count c, opened, s =>
    let (r, s) := db.connection.count c s
    (.ofExcept .number r, opened, s)
  | .createIndexes c, opened, s =>
    let (r, s) := db.connection.createIndexes c s
    (.ofExcept (fun () => .done) r, opened, s)
  | .drop name, opened, s =>
    let (r, s) := db.connection.drop name s
    (.ofExcept (fun () => .done) r, opened, s)
  | .documents name, opened, s =>
    (.documents (s.store.committed.collection name).documents, opened, s)
  | .indexes name, opened, s =>
    (.indexes (s.store.committed.collection name).indexes, opened, s)
  | .journal, opened, s => (.journal s.store.journal, opened, s)
  | .state, opened, s => (.state db.inTransaction, opened, s)
  | .require kind, opened, s => (.ofExcept (fun () => .done) (db.requireKind kind), opened, s)
  | .start name, opened, s =>
    match db.connection.start s with
    | (.error e, s) => (.failed e [], opened, s)
    | (.ok c, s) => (.done, (name, .ofConnection c) :: opened, s)
  | .commit, opened, s =>
    let (r, s) := db.connection.commit s
    (.ofExcept (fun () => .done) r, opened, s)
  | .abort, opened, s =>
    let (r, s) := db.connection.abort s
    (.ofExcept (fun () => .done) r, opened, s)
  | .transaction steps fail, opened, s =>
    let body := fun (handle : Database) (x : List Answer × OpenTransactions) (s : Server) =>
      match runBody handle steps x s with
      | (.ok (), x, s) => (if fail then .error .unsupportedJoin else .ok (), x, s)
      | (.error e, x, s) => (.error e, x, s)
    match db.transaction body ([], opened) s with
    | (.ok (), (answers, opened), s) => (.committed answers, opened, s)
    | (.error e, (answers, opened), s) => (.aborted e answers, opened, s)

/-- Run the steps of a transaction in order, adding the answers to those so far. -/
def runBody (db : Database) :
    List (Placement × Step) → List Answer × OpenTransactions → Server →
      Except Error Unit × (List Answer × OpenTransactions) × Server
  | [], x, s => (.ok (), x, s)
  | (p, step) :: rest, (answers, opened), s =>
    match run (p.database db opened) step opened s with
    | (answer, opened, s) =>
      let x := (answers ++ [answer], opened)
      match answer.error? with
      | none => runBody db rest x s
      | some e => if p.ignore then runBody db rest x s else (.error e, x, s)

end

end Step

/-- The answers to the steps of a session, run in order on a database. -/
def Session.run [RegexEngine] (db : Database) :
    List (Placement × Step) → OpenTransactions → Server → List Answer × Server
  | [], _, s => ([], s)
  | (p, step) :: rest, opened, s =>
    match step.run (p.database db opened) opened s with
    | (answer, opened, s) =>
      let (answers, s) := Session.run db rest opened s
      (answer :: answers, s)

end DocQuery
