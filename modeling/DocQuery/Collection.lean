import DocQuery.Command
import DocQuery.Matching
import DocQuery.Sorting
import DocQuery.Update
import DocQuery.Value.Text

/-!
# Collections

A collection holds documents in the order of their insertion, and unique indexes. No two documents
may be equal under an index, or under the identity, which is indexed from the start. A write that
would break this is refused; what a command wrote before it was refused stays written, so each
operation that writes returns the collection beside its reply.
-/

namespace DocQuery

/-- The documents and the indexes of a collection. -/
structure Collection where
  documents : List Document
  indexes : List IndexDefinition
deriving DecidableEq

/-- How many documents an update matched and how many it changed. -/
structure UpdateReply where
  matched : Nat
  modified : Nat
deriving DecidableEq

namespace Collection

/-- A collection without documents. -/
def empty : Collection := ⟨[], []⟩

/-! ### Uniqueness -/

/-- The name of the index on the identity. -/
def idIndexName : String := "_id_"

/-- The values of a document under the keys of an index, null where there is none. -/
def indexKey (index : IndexDefinition) (d : Document) : List Value :=
  index.keys.keys.map fun path => (d.read? path).getD .null

/-- Whether the identity of a document is equal to the given one. -/
def hasIdentity (id : Value) (d : Document) : Bool := (d.value? idKey).any (·.equal id)

/-- The cause that refuses a document whose identity is taken by one of the others. -/
def identityConflict? (name : String) (others : List Document) (d : Document) :
    Option StoreError :=
  match d.value? idKey with
  | none => none
  | some id =>
    if others.any (hasIdentity id) then some (.duplicateKey name idIndexName id.text) else none

/-- The cause that refuses a document whose index key is taken by one of the others. -/
def indexConflict? (name : String) (others : List Document) (d : Document)
    (index : IndexDefinition) : Option StoreError :=
  let key := indexKey index d
  if index.unique && others.any fun o => Value.equalItems (indexKey index o) key then
    some (.duplicateKey name index.name (Value.array key).text)
  else none

/-- The cause that refuses a document beside others: of the identity first, then of the indexes in
order. -/
def conflict? (name : String) (indexes : List IndexDefinition) (others : List Document)
    (d : Document) : Option StoreError :=
  match identityConflict? name others d with
  | some cause => some cause
  | none => indexes.findSome? (indexConflict? name others d)

/-! ### Reading -/

/-- The page of a list of documents. -/
def page (skip limit : Option UInt64) (ds : List Document) : List Document :=
  let rest := ds.drop (skip.getD 0).toNat
  match limit with
  | none => rest
  | some n => rest.take n.toNat

/-- The documents of a find command: selected, sorted, then cut to the page. -/
def find [RegexEngine] (command : FindCommand) (c : Collection) :
    Except StoreError (List Document) := do
  let found ← Document.selectFrom command.filter c.documents
  let sorted ←
    match command.sort with
    | none => pure found
    | some spec => Document.sortBy spec found
  pure (page command.skip command.limit sorted)

/-- The number of documents that satisfy a query document. -/
def count [RegexEngine] (filter : Document) (c : Collection) : Except StoreError Nat := do
  let found ← Document.selectFrom filter c.documents
  pure found.length

/-! ### Inserting -/

/-- The document with an identity: its own, or the given one as the first entry. -/
def identified (fresh : ObjectId) (d : Document) : Document :=
  if d.has idKey then d else (idKey, .objectId fresh) :: d

/-- Insert documents in order, up to the first that is refused. The numbers of the documents, from
the given one on, tell them their identities. -/
def insertAll (name : String) (fresh : Nat → ObjectId) (n : Nat) :
    List Document → Collection → Except StoreError Nat × Collection
  | [], c => (.ok n, c)
  | d :: ds, c =>
    let d := identified (fresh n) d
    match conflict? name c.indexes c.documents d with
    | some cause => (.error cause, c)
    | none => insertAll name fresh (n + 1) ds { c with documents := c.documents ++ [d] }

/-- Insert documents; the reply is their number. -/
def insert (name : String) (fresh : Nat → ObjectId) (ds : List Document) (c : Collection) :
    Except StoreError Nat × Collection :=
  insertAll name fresh 0 ds c

/-! ### Updating -/

/-- The positions of the documents that a statement updates, from the given one on. -/
def targets [RegexEngine] (statement : UpdateStatement) (i : Nat) :
    List Document → Except StoreError (List Nat)
  | [] => .ok []
  | d :: ds => do
    let b ← d.satisfies statement.filter
    if b then
      if statement.multi then do
        let rest ← targets statement (i + 1) ds
        pure (i :: rest)
      else pure [i]
    else targets statement (i + 1) ds

/-- Update the document at a position. One that stays the same is not written. -/
def updateAt (name : String) (update : Document) (i : Nat) (reply : UpdateReply)
    (c : Collection) : Except StoreError UpdateReply × Collection :=
  match c.documents[i]? with
  | none => (.ok reply, c)
  | some current =>
    match current.updatedBy update with
    | .error cause => (.error cause, c)
    | .ok updated =>
      if updated.same current then (.ok { reply with matched := reply.matched + 1 }, c)
      else
        match conflict? name c.indexes (c.documents.eraseIdx i) updated with
        | some cause => (.error cause, c)
        | none =>
          (.ok ⟨reply.matched + 1, reply.modified + 1⟩,
            { c with documents := c.documents.set i updated })

/-- Update the documents at several positions in order, up to the first that is refused. -/
def updateEach (name : String) (update : Document) :
    List Nat → UpdateReply → Collection → Except StoreError UpdateReply × Collection
  | [], reply, c => (.ok reply, c)
  | i :: rest, reply, c =>
    match updateAt name update i reply c with
    | (.error cause, c) => (.error cause, c)
    | (.ok reply, c) => updateEach name update rest reply c

/-- Run the statements of an update in order; the targets of a statement are found before it
changes any document. -/
def updateAll [RegexEngine] (name : String) :
    List UpdateStatement → UpdateReply → Collection → Except StoreError UpdateReply × Collection
  | [], reply, c => (.ok reply, c)
  | statement :: rest, reply, c =>
    match targets statement 0 c.documents with
    | .error cause => (.error cause, c)
    | .ok positions =>
      match updateEach name statement.update positions reply c with
      | (.error cause, c) => (.error cause, c)
      | (.ok reply, c) => updateAll name rest reply c

/-- Update documents; the reply counts over all statements. -/
def update [RegexEngine] (name : String) (statements : List UpdateStatement) (c : Collection) :
    Except StoreError UpdateReply × Collection :=
  updateAll name statements ⟨0, 0⟩ c

/-! ### Deleting -/

/-- The documents that a deletion leaves. One that is limited to one document does not look beyond
the first that matches. -/
def remaining [RegexEngine] (filter : Document) (limit : DeleteScope) :
    List Document → Except StoreError (List Document)
  | [] => .ok []
  | d :: ds => do
    let b ← d.satisfies filter
    if b then
      match limit with
      | .one => pure ds
      | .all => remaining filter limit ds
    else do
      let rest ← remaining filter limit ds
      pure (d :: rest)

/-- Delete documents; the reply is their number. -/
def delete [RegexEngine] (filter : Document) (limit : DeleteScope) (c : Collection) :
    Except StoreError Nat × Collection :=
  match remaining filter limit c.documents with
  | .error cause => (.error cause, c)
  | .ok ds => (.ok (c.documents.length - ds.length), { c with documents := ds })

/-! ### Indexing -/

/-- The cause that refuses an index over documents, the first of which it already holds. -/
def coverageConflict? (name : String) (index : IndexDefinition) (held : List Document) :
    List Document → Option StoreError
  | [] => none
  | d :: ds =>
    match conflict? name [index] held d with
    | some cause => some cause
    | none => coverageConflict? name index (held ++ [d]) ds

/-- Create indexes in order, up to the first that is refused. One that exists is left as it is. -/
def createIndexes (name : String) :
    List IndexDefinition → Collection → Except StoreError Unit × Collection
  | [], c => (.ok (), c)
  | index :: rest, c =>
    match c.indexes.find? (·.name == index.name) with
    | some existing =>
      if existing.keys.same index.keys && existing.unique == index.unique then
        createIndexes name rest c
      else (.error (.indexConflict index.name), c)
    | none =>
      match coverageConflict? name index [] c.documents with
      | some cause => (.error cause, c)
      | none => createIndexes name rest { c with indexes := c.indexes ++ [index] }

end Collection

end DocQuery
