import DocQuery.Value

/-!
# Commands

What a document store is asked to do. Commands are plain data, so a store can keep a journal of
them; those that are sent as a document have that document as `toDocument`.
-/

namespace DocQuery

/-- Find the documents of a collection that match a filter. -/
structure FindCommand where
  collection : String
  filter : Document
  sort : Option Document
  skip : Option UInt64
  limit : Option UInt64
deriving DecidableEq

/-- Run a pipeline over a collection. -/
structure AggregateCommand where
  collection : String
  pipeline : List Document
deriving DecidableEq

/-- Insert documents. -/
structure InsertCommand where
  collection : String
  documents : List Document
deriving DecidableEq

/-- One statement of an update. -/
structure UpdateStatement where
  filter : Document
  update : Document
  /-- Whether every matching document is updated, and not only the first. -/
  multi : Bool
deriving DecidableEq

/-- Update documents, statement by statement. -/
structure UpdateCommand where
  collection : String
  updates : List UpdateStatement
deriving DecidableEq

/-- How many of the matching documents a deletion removes. -/
inductive DeleteScope where
  | one
  | all
deriving DecidableEq

/-- Delete the documents that match a filter. -/
structure DeleteCommand where
  collection : String
  filter : Document
  limit : DeleteScope
deriving DecidableEq

/-- Count the documents that match a filter. -/
structure CountCommand where
  collection : String
  filter : Document
deriving DecidableEq

/-- The definition of an index. -/
structure IndexDefinition where
  name : String
  /-- The keys in order, each with its direction. -/
  keys : Document
  unique : Bool
deriving DecidableEq

/-- Create indexes on a collection. -/
structure IndexCommand where
  collection : String
  indexes : List IndexDefinition
deriving DecidableEq

/-- A command. -/
inductive Command where
  | find (c : FindCommand)
  | aggregate (c : AggregateCommand)
  | insert (c : InsertCommand)
  | update (c : UpdateCommand)
  | delete (c : DeleteCommand)
  | count (c : CountCommand)
  | createIndexes (c : IndexCommand)
  | drop (collection : String)
  | startTransaction
  | commitTransaction
  | abortTransaction
deriving DecidableEq

/-- The document of a statement. -/
def UpdateStatement.toDocument (s : UpdateStatement) : Document :=
  [("q", .document s.filter), ("u", .document s.update), ("multi", .bool s.multi)]

/-- The document of an update. -/
def UpdateCommand.toDocument (c : UpdateCommand) : Document :=
  [("update", .string c.collection),
    ("updates", .array (c.updates.map fun s => .document s.toDocument))]

/-- The number that stands for a limit; zero stands for none. -/
def DeleteScope.toValue : DeleteScope → Value
  | .one => .int32 1
  | .all => .int32 0

/-- The document of a deletion. -/
def DeleteCommand.toDocument (c : DeleteCommand) : Document :=
  [("delete", .string c.collection),
    ("deletes", .array [.document [("q", .document c.filter), ("limit", c.limit.toValue)]])]

/-- The document of a count. -/
def CountCommand.toDocument (c : CountCommand) : Document :=
  [("count", .string c.collection), ("query", .document c.filter)]

/-- The document of an index definition. -/
def IndexDefinition.toDocument (i : IndexDefinition) : Document :=
  [("key", .document i.keys), ("name", .string i.name), ("unique", .bool i.unique)]

/-- The document of an index creation. -/
def IndexCommand.toDocument (c : IndexCommand) : Document :=
  [("createIndexes", .string c.collection),
    ("indexes", .array (c.indexes.map fun i => .document i.toDocument))]

end DocQuery
