import DocQuery.Catalog

/-!
# Stores

A store holds the committed catalog, the working copies of its transactions and a journal of every
command it received. Commands run through a handle, which is the store itself or one of its
transactions. A transaction works on a copy of the catalog taken at its start; committing installs
the copy as a whole, aborting drops it, and after either every command of the transaction is
refused. Transactions that overlap do not notice each other: the last to commit wins.
-/

namespace DocQuery

/-- Where a command runs. -/
inductive Handle where
  /-- On the committed catalog. -/
  | base
  /-- On the working copy of the transaction of that number. -/
  | transaction (n : Nat)
deriving DecidableEq

/-- A document store. -/
structure Store where
  committed : Catalog
  /-- The working copies of the transactions by number, none once a transaction has finished. -/
  working : List (Option Catalog)
  /-- Every command received, the latest last. -/
  journal : List Command
deriving DecidableEq

namespace Store

/-- A store without collections. -/
def empty : Store := ⟨.empty, [], []⟩

/-- Enter a command into the journal. -/
def record (command : Command) (s : Store) : Store :=
  { s with journal := s.journal ++ [command] }

/-- The catalog that a handle works on. -/
def catalog? (h : Handle) (s : Store) : Option Catalog :=
  match h with
  | .base => some s.committed
  | .transaction n => s.working[n]?.join

/-- Replace the catalog that a handle works on. -/
def withCatalog (h : Handle) (c : Catalog) (s : Store) : Store :=
  match h with
  | .base => { s with committed := c }
  | .transaction n => { s with working := s.working.set n (some c) }

/-- Run a command that reads, after it was recorded. -/
def ask {α : Type} (h : Handle) (f : Catalog → Except StoreError α) (s : Store) :
    Except StoreError α × Store :=
  match s.catalog? h with
  | none => (.error .transactionFinished, s)
  | some c => (f c, s)

/-- Run a command that writes, after it was recorded. -/
def run {α : Type} (h : Handle) (f : Catalog → Except StoreError α × Catalog) (s : Store) :
    Except StoreError α × Store :=
  match s.catalog? h with
  | none => (.error .transactionFinished, s)
  | some c =>
    let (reply, c) := f c
    (reply, s.withCatalog h c)

/-! ### Commands -/

/-- The documents of a find command. -/
def find [RegexEngine] (h : Handle) (command : FindCommand) (s : Store) :
    Except StoreError (List Document) × Store :=
  (s.record (.find command)).ask h (Catalog.find command)

/-- The documents of a pipeline. -/
def aggregate [RegexEngine] (h : Handle) (command : AggregateCommand) (s : Store) :
    Except StoreError (List Document) × Store :=
  (s.record (.aggregate command)).ask h (Catalog.aggregate command)

/-- The number of documents that match. -/
def count [RegexEngine] (h : Handle) (command : CountCommand) (s : Store) :
    Except StoreError Nat × Store :=
  (s.record (.count command)).ask h (Catalog.count command)

/-- Insert documents; `fresh` supplies the identities of those that have none. -/
def insert (h : Handle) (fresh : Nat → ObjectId) (command : InsertCommand) (s : Store) :
    Except StoreError Nat × Store :=
  (s.record (.insert command)).run h (Catalog.insert fresh command)

/-- Update documents. -/
def update [RegexEngine] (h : Handle) (command : UpdateCommand) (s : Store) :
    Except StoreError UpdateReply × Store :=
  (s.record (.update command)).run h (Catalog.update command)

/-- Delete documents. -/
def delete [RegexEngine] (h : Handle) (command : DeleteCommand) (s : Store) :
    Except StoreError Nat × Store :=
  (s.record (.delete command)).run h (Catalog.delete command)

/-- Create indexes. -/
def createIndexes (h : Handle) (command : IndexCommand) (s : Store) :
    Except StoreError Unit × Store :=
  (s.record (.createIndexes command)).run h (Catalog.createIndexes command)

/-- Remove a collection. -/
def drop (h : Handle) (name : String) (s : Store) : Except StoreError Unit × Store :=
  (s.record (.drop name)).run h (Catalog.drop name)

/-! ### Transactions -/

/-- Start a transaction; the reply is its number. Transactions do not nest. -/
def start (h : Handle) (s : Store) : Except StoreError Nat × Store :=
  match h with
  | .transaction _ => (.error .transactionInProgress, s)
  | .base =>
    let s := s.record .startTransaction
    (.ok s.working.length, { s with working := s.working ++ [some s.committed] })

/-- Install the working copy of a transaction. -/
def commit (n : Nat) (s : Store) : Except StoreError Unit × Store :=
  let s := s.record .commitTransaction
  match s.working[n]?.join with
  | none => (.error .transactionFinished, s)
  | some c => (.ok (), { s with committed := c, working := s.working.set n none })

/-- Drop the working copy of a transaction. -/
def abort (n : Nat) (s : Store) : Except StoreError Unit × Store :=
  let s := s.record .abortTransaction
  match s.working[n]?.join with
  | none => (.error .transactionFinished, s)
  | some _ => (.ok (), { s with working := s.working.set n none })

end Store

end DocQuery
