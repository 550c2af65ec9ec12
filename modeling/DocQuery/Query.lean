import DocQuery.Join
import DocQuery.Sort

/-!
# Queries

A query says what to do with the documents of one collection, and everything needed to select,
order, join and shape them.
-/

namespace DocQuery

/-- A number of rows to deliver or to skip. -/
inductive Limit where
  | count (n : UInt64)
  /-- A limit meant for some other backend. -/
  | custom (text : String)
deriving DecidableEq

/-- A function of many values. -/
inductive AggregateFunction where
  | count
  | sum
  | average
  | minimum
  | maximum
  | custom (name : String)
deriving DecidableEq

/-- An aggregate that a query asks for. -/
inductive Aggregate where
  | field (f : Field) (function : AggregateFunction)
  /-- An aggregate meant for some other backend. -/
  | custom (text : String)
deriving DecidableEq

/-- What a query does. -/
inductive Action where
  | create
  | read
  | update
  | delete
  | aggregate (a : Aggregate)
  | custom (name : String)
deriving DecidableEq

/-- A query against one collection. -/
structure Query where
  /-- The collection. -/
  schema : String
  action : Action
  /-- The fields to deliver; for writes, the fields that the input rows are aligned to. -/
  fields : List Field := []
  /-- Filters that must all hold. -/
  filters : List Filter := []
  /-- Rows to write, with one operand for each field. -/
  input : List (List Operand) := []
  joins : List Join := []
  sorts : List SortBy := []
  /-- Only the first limit counts. -/
  limits : List Limit := []
  /-- Only the first offset counts. -/
  offsets : List Limit := []

/-- The first of a list of limits, which must be a number. -/
def Limit.first : List Limit → Except Error (Option UInt64)
  | [] => .ok none
  | .count n :: _ => .ok (some n)
  | .custom _ :: _ => .error .unsupportedCustomLimit

namespace Query

def create (schema : String) : Query := ⟨schema, .create, [], [], [], [], [], [], []⟩
def read (schema : String) : Query := ⟨schema, .read, [], [], [], [], [], [], []⟩
def update (schema : String) : Query := ⟨schema, .update, [], [], [], [], [], [], []⟩
def delete (schema : String) : Query := ⟨schema, .delete, [], [], [], [], [], [], []⟩

/-- A query for an aggregate of a field. -/
def aggregate (schema : String) (f : Field) (function : AggregateFunction) : Query :=
  ⟨schema, .aggregate (.field f function), [], [], [], [], [], [], []⟩

def withField (q : Query) (f : Field) : Query := { q with fields := q.fields ++ [f] }
def withFields (q : Query) (fs : List Field) : Query := { q with fields := fs }
def withFilter (q : Query) (f : Filter) : Query := { q with filters := q.filters ++ [f] }
def withInput (q : Query) (row : List Operand) : Query := { q with input := q.input ++ [row] }
def withJoin (q : Query) (j : Join) : Query := { q with joins := q.joins ++ [j] }
def withSort (q : Query) (s : SortBy) : Query := { q with sorts := q.sorts ++ [s] }
def withLimit (q : Query) (n : UInt64) : Query := { q with limits := q.limits ++ [.count n] }
def withOffset (q : Query) (n : UInt64) : Query := { q with offsets := q.offsets ++ [.count n] }

end Query

end DocQuery
