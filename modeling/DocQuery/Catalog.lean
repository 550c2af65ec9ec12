import DocQuery.Collection
import DocQuery.Stage

/-!
# Catalogs

A catalog holds the collections of a database by name. A name that was never written stands for an
empty collection. Commands are answered here; those that write return the new catalog beside the
reply and leave every collection but their own alone.
-/

namespace DocQuery

/-- The collections of a database by name. -/
structure Catalog where
  entries : List (String × Collection)
deriving DecidableEq

namespace Catalog

/-- The catalog without collections. -/
def empty : Catalog := ⟨[]⟩

/-- The collection under a name among entries. -/
def lookup (name : String) : List (String × Collection) → Collection
  | [] => .empty
  | (k, c) :: rest => if k = name then c else lookup name rest

/-- Replace the collection under a name among entries. -/
def replace (name : String) (c : Collection) :
    List (String × Collection) → List (String × Collection)
  | [] => [(name, c)]
  | (k, old) :: rest => if k = name then (k, c) :: rest else (k, old) :: replace name c rest

/-- The collection under a name. -/
def collection (c : Catalog) (name : String) : Collection := lookup name c.entries

/-- The catalog with another collection under a name. -/
def withCollection (c : Catalog) (name : String) (content : Collection) : Catalog :=
  ⟨replace name content c.entries⟩

theorem lookup_replace_self (name : String) (c : Collection)
    (entries : List (String × Collection)) : lookup name (replace name c entries) = c := by
  fun_induction replace name c entries <;> simp_all [lookup]

private theorem lookup_replace_of_ne {name other : String} (c : Collection)
    (entries : List (String × Collection)) (h : name ≠ other) :
    lookup other (replace name c entries) = lookup other entries := by
  fun_induction replace name c entries <;> simp_all [lookup]

@[simp] theorem collection_withCollection_self (c : Catalog) (name : String)
    (content : Collection) : (c.withCollection name content).collection name = content :=
  lookup_replace_self name content c.entries

theorem collection_withCollection_of_ne (c : Catalog) {name other : String}
    (content : Collection) (h : name ≠ other) :
    (c.withCollection name content).collection other = c.collection other :=
  lookup_replace_of_ne content c.entries h

/-- What holds of all collections and of one that is put among them holds of all afterwards. -/
theorem forall_withCollection {c : Catalog} {p : Collection → Prop}
    (hc : ∀ name, p (c.collection name)) {name : String} {content : Collection}
    (hcontent : p content) (other : String) :
    p ((c.withCollection name content).collection other) := by
  by_cases h : name = other
  · rwa [← h, collection_withCollection_self]
  · rw [collection_withCollection_of_ne c content h]
    exact hc other

/-- Run an operation that writes to one collection. -/
def modify {α : Type} (c : Catalog) (name : String)
    (f : Collection → Except StoreError α × Collection) : Except StoreError α × Catalog :=
  let (reply, content) := f (c.collection name)
  (reply, c.withCollection name content)

/-! ### Commands -/

/-- The documents of a find command. -/
def find [RegexEngine] (command : FindCommand) (c : Catalog) : Except StoreError (List Document) :=
  (c.collection command.collection).find command

/-- The documents of a pipeline over a collection. -/
def aggregate [RegexEngine] (command : AggregateCommand) (c : Catalog) :
    Except StoreError (List Document) :=
  Stage.runAll (fun name => (c.collection name).documents) command.pipeline
    (c.collection command.collection).documents

/-- The number of documents that a count command asks for. -/
def count [RegexEngine] (command : CountCommand) (c : Catalog) : Except StoreError Nat :=
  (c.collection command.collection).count command.filter

/-- Insert documents. Those without an identity get the fresh one of their position. -/
def insert (fresh : Nat → ObjectId) (command : InsertCommand) (c : Catalog) :
    Except StoreError Nat × Catalog :=
  c.modify command.collection (Collection.insert command.collection fresh command.documents)

/-- Update documents. -/
def update [RegexEngine] (command : UpdateCommand) (c : Catalog) :
    Except StoreError UpdateReply × Catalog :=
  c.modify command.collection (Collection.update command.collection command.updates)

/-- Delete documents. -/
def delete [RegexEngine] (command : DeleteCommand) (c : Catalog) :
    Except StoreError Nat × Catalog :=
  c.modify command.collection (Collection.delete command.filter command.limit)

/-- Create indexes. -/
def createIndexes (command : IndexCommand) (c : Catalog) : Except StoreError Unit × Catalog :=
  c.modify command.collection (Collection.createIndexes command.collection command.indexes)

/-- Remove a collection with its indexes. -/
def drop (name : String) (c : Catalog) : Except StoreError Unit × Catalog :=
  (.ok (), c.withCollection name .empty)

end Catalog

end DocQuery
