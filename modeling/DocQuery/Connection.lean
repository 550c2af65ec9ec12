import DocQuery.Store

/-!
# Connections

A connection passes commands to a store on a server. A faulty connection loses things on the way:
it hides acknowledged documents, breaks off a delivery after some documents, keeps a commit from
the store, or reports an abort that succeeded as failed. Documents inserted without an identity get
one from the server, which never supplies the same twice.
-/

namespace DocQuery

/-- What a faulty connection loses, and the errors it reports. -/
structure Faults where
  /-- How many inserted documents are not acknowledged. -/
  shortAck : Nat
  /-- After how many documents a delivery breaks off, if there are more, and how it ends. -/
  breakOff : Option (Nat × Error)
  /-- How every commit fails, which the store does not get to see. -/
  failCommit : Option Error
  /-- How an abort that the store carried out is reported as failed. -/
  failAbort : Option Error
deriving DecidableEq

/-- A connection to a store. -/
structure Connection where
  handle : Handle
  /-- The faults of a faulty connection; a sound one has none. -/
  faults : Option Faults
deriving DecidableEq

/-- A kind of store that a caller may insist on. -/
inductive StoreKind where
  | memory
  /-- A store in memory behind a faulty connection. -/
  | faulty
  /-- A store on a database server. -/
  | external
deriving DecidableEq

/-- A server with its store. -/
structure Server where
  store : Store
  /-- How many identities were supplied. -/
  issued : Nat

/-- Documents delivered in order, and how the delivery ended. -/
structure Delivery where
  documents : List Document
  ending : Except Error Unit

namespace Server

/-- A server with an empty store. -/
def empty : Server := ⟨.empty, 0⟩

/-- The identity supplied at a turn; later ones are greater. -/
def identity (turn : Nat) : ObjectId := .ofNat (0x690000000000000000000000 + turn)

/-- Pass a command to the store. -/
def run {α : Type} (f : Store → Except StoreError α × Store) (s : Server) :
    Except Error α × Server :=
  let (reply, store) := f s.store
  (reply.mapError .store, { s with store := store })

end Server

namespace Connection

/-- A sound connection to the store itself. -/
def sound : Connection := ⟨.base, none⟩

/-- A faulty connection to the store itself. -/
def faulty (faults : Faults) : Connection := ⟨.base, some faults⟩

/-- The kind of store that a caller sees. -/
def kind (c : Connection) : StoreKind :=
  match c.faults with
  | none => .memory
  | some _ => .faulty

/-- What arrives of the documents of a reply. -/
def deliver (c : Connection) (reply : Except Error (List Document)) : Delivery :=
  match reply with
  | .error e => ⟨[], .error e⟩
  | .ok ds =>
    match c.faults.bind (·.breakOff) with
    | none => ⟨ds, .ok ()⟩
    | some (n, e) => if n < ds.length then ⟨ds.take n, .error e⟩ else ⟨ds, .ok ()⟩

/-- Find documents. -/
def find [RegexEngine] (c : Connection) (command : FindCommand) (s : Server) : Delivery × Server :=
  let (reply, s) := s.run (Store.find c.handle command)
  (c.deliver reply, s)

/-- Run a pipeline. -/
def aggregate [RegexEngine] (c : Connection) (command : AggregateCommand) (s : Server) :
    Delivery × Server :=
  let (reply, s) := s.run (Store.aggregate c.handle command)
  (c.deliver reply, s)

/-- Insert documents; the reply is how many were acknowledged. -/
def insert (c : Connection) (command : InsertCommand) (s : Server) :
    Except Error Nat × Server :=
  let fresh := fun i => Server.identity (s.issued + i)
  let (reply, s) := s.run (Store.insert c.handle fresh command)
  (reply.map (· - (c.faults.map (·.shortAck)).getD 0),
    { s with issued := s.issued + command.documents.length })

/-- Update documents. -/
def update [RegexEngine] (c : Connection) (command : UpdateCommand) (s : Server) :
    Except Error UpdateReply × Server :=
  s.run (Store.update c.handle command)

/-- Delete documents. -/
def delete [RegexEngine] (c : Connection) (command : DeleteCommand) (s : Server) :
    Except Error Nat × Server :=
  s.run (Store.delete c.handle command)

/-- Count documents. -/
def count [RegexEngine] (c : Connection) (command : CountCommand) (s : Server) :
    Except Error Nat × Server :=
  s.run (Store.count c.handle command)

/-- Create indexes. -/
def createIndexes (c : Connection) (command : IndexCommand) (s : Server) :
    Except Error Unit × Server :=
  s.run (Store.createIndexes c.handle command)

/-- Remove a collection. -/
def drop (c : Connection) (name : String) (s : Server) : Except Error Unit × Server :=
  s.run (Store.drop c.handle name)

/-- Start a transaction; the reply is a connection to it. -/
def start (c : Connection) (s : Server) : Except Error Connection × Server :=
  let (reply, s) := s.run (Store.start c.handle)
  (reply.map fun n => ⟨.transaction n, c.faults⟩, s)

/-- Commit the transaction of a connection. -/
def commit (c : Connection) (s : Server) : Except Error Unit × Server :=
  match c.handle with
  | .base => (.error (.store .transactionFinished), s)
  | .transaction n =>
    match c.faults.bind (·.failCommit) with
    | some e => (.error e, s)
    | none => s.run (Store.commit n)

/-- Abort the transaction of a connection. -/
def abort (c : Connection) (s : Server) : Except Error Unit × Server :=
  match c.handle with
  | .base => (.error (.store .transactionFinished), s)
  | .transaction n =>
    match s.run (Store.abort n) with
    | (.error e, s) => (.error e, s)
    | (.ok (), s) =>
      match c.faults.bind (·.failAbort) with
      | some e => (.error e, s)
      | none => (.ok (), s)

end Connection

end DocQuery
