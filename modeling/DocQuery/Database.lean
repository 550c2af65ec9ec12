import DocQuery.QueryPlan
import DocQuery.Connection
import DocQuery.Row
import DocQuery.Schema

/-!
# Databases

A database runs queries, schema operations and transactions over a connection. A query is compiled
in full before its one command is sent. What it delivers is a list of rows and an ending, since an
error may follow rows that were already delivered. A transaction runs a body on a handle of its
own: when the body succeeds it is committed, and otherwise, or when the commit fails, aborted.
-/

namespace DocQuery

/-- A handle on a database. -/
structure Database where
  connection : Connection
  /-- Whether the handle belongs to a running transaction. -/
  inTransaction : Bool
deriving DecidableEq

/-- The rows of a query in order, and how it ended. -/
@[ext] structure Outcome where
  rows : List Row
  ending : Except Error Unit

namespace Outcome

/-- An outcome without rows. -/
def failure (e : Error) : Outcome := ⟨[], .error e⟩

/-- An outcome of one row. -/
def single (row : Row) : Outcome := ⟨[row], .ok ()⟩

/-- The outcome of a command that reports a number. -/
def ofCount (reply : Except Error Nat) : Outcome :=
  match reply with
  | .ok n => .single (.ofCount n)
  | .error e => .failure e

/-- The outcome of an insertion: all documents must be acknowledged. -/
def ofInsert (expected : Nat) (reply : Except Error Nat) : Outcome :=
  match reply with
  | .ok n =>
    if n = expected then .single (.ofCount n) else .failure (.insertFailed expected n)
  | .error e => .failure e

/-- The outcome of a delivery whose documents are rows. -/
def ofDelivery (row : Document → Row) (d : Delivery) : Outcome := ⟨d.documents.map row, d.ending⟩

/-- The outcome of a delivery that is reduced to one row. -/
def reduce (row : List Document → Row) (d : Delivery) : Outcome :=
  match d.ending with
  | .ok () => .single (row d.documents)
  | .error e => .failure e

/-- The rows, if there was no error. -/
def toExcept (o : Outcome) : Except Error (List Row) :=
  match o.ending with
  | .ok () => .ok o.rows
  | .error e => .error e

end Outcome

namespace Database

/-- A database over a connection. -/
def ofConnection (c : Connection) : Database := ⟨c, false⟩

/-- The value of a reduction: what its first document holds, or null. -/
def reducedValue (ds : List Document) : Value :=
  match ds with
  | [] => .null
  | d :: _ => (d.value? QueryPlan.resultKey).getD .null

/-- Send the command of a plan and read the reply. -/
def run [RegexEngine] (db : Database) (plan : QueryPlan) (s : Server) : Outcome × Server :=
  let c := db.connection
  match plan with
  | .insert command =>
    let (reply, s) := c.insert command s
    (.ofInsert command.documents.length reply, s)
  | .find schema command =>
    let (delivery, s) := c.find command s
    (.ofDelivery (Row.ofDocument schema) delivery, s)
  | .join command layout =>
    let (delivery, s) := c.aggregate command s
    (.ofDelivery (Row.ofJoined layout) delivery, s)
  | .update command =>
    let (reply, s) := c.update command s
    (.ofCount (reply.map (·.modified)), s)
  | .delete command =>
    let (reply, s) := c.delete command s
    (.ofCount reply, s)
  | .count command =>
    let (reply, s) := c.count command s
    (.ofCount reply, s)
  | .joinCount command =>
    let (delivery, s) := c.aggregate command s
    (.reduce (fun ds => .ofCount ds.length) delivery, s)
  | .group command =>
    let (delivery, s) := c.aggregate command s
    (.reduce (fun ds => .aggregate (reducedValue ds)) delivery, s)

/-- Execute a query, reporting the rows delivered before an error. -/
def execute [RegexEngine] (db : Database) (q : Query) (s : Server) : Outcome × Server :=
  match q.compile with
  | .error e => (.failure e, s)
  | .ok plan => db.run plan s

/-- Execute a query for its rows. -/
def query [RegexEngine] (db : Database) (q : Query) (s : Server) :
    Except Error (List Row) × Server :=
  let (o, s) := db.execute q s
  (o.toExcept, s)

/-- Create indexes by several commands in order, up to the first that fails. -/
def createEach (db : Database) : List IndexCommand → Server → Except Error Unit × Server
  | [], s => (.ok (), s)
  | command :: rest, s =>
    match db.connection.createIndexes command s with
    | (.error e, s) => (.error e, s)
    | (.ok (), s) => createEach db rest s

/-- Execute a schema operation. -/
def executeSchema (db : Database) (o : SchemaOperation) (s : Server) :
    Except Error Unit × Server :=
  match o.compile with
  | .error e => (.error e, s)
  | .ok (.createIndexes commands) => db.createEach commands s
  | .ok (.drop collection) => db.connection.drop collection s

/-- Run a body inside a transaction. Inside a transaction already, the body runs on the handle as
it is. The body may keep a state of its own, which no abort takes back; an abort that fails does
not change the outcome. -/
def transaction {σ α : Type} (db : Database)
    (body : Database → σ → Server → Except Error α × σ × Server) (x : σ) (s : Server) :
    Except Error α × σ × Server :=
  if db.inTransaction then body db x s
  else
    match db.connection.start s with
    | (.error e, s) => (.error e, x, s)
    | (.ok c, s) =>
      match body ⟨c, true⟩ x s with
      | (.error e, x, s) => (.error e, x, (c.abort s).2)
      | (.ok v, x, s) =>
        match c.commit s with
        | (.ok (), s) => (.ok v, x, s)
        | (.error e, s) => (.error e, x, (c.abort s).2)

/-- Run a body on a connection. There is no separate one to check out. -/
def withConnection {β : Type} (db : Database) (body : Database → Server → β) (s : Server) : β :=
  body db s

/-- Insist on a kind of store. -/
def requireKind (db : Database) (kind : StoreKind) : Except Error Unit :=
  if db.connection.kind = kind then .ok () else .error .wrongStore

/-- What only a database server can do. -/
inductive Capability where
  /-- Follow the changes of a collection. -/
  | watch (collection : String)
  | findFile (id : Value)
  | fetchFile (id : Value)
  | uploadFile (name : Option String)
deriving DecidableEq

/-- Ask for something that only a database server can do. -/
def demand (db : Database) (_ : Capability) : Except Error Unit := db.requireKind .external

end Database

end DocQuery
