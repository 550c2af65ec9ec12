import DocQuery.Command
import DocQuery.Pipeline

/-!
# Query plans

A query is compiled in full before anything is sent to a store, so a query that has no plan
leaves nothing behind. Its plan is a single command, together with what is needed to
read the reply.
-/

namespace DocQuery

/-- The command of a query, and how its reply is read. -/
inductive QueryPlan where
  | insert (c : InsertCommand)
  /-- A plain read; its documents are wrapped under the name of the collection. -/
  | find (schema : String) (c : FindCommand)
  /-- A joined read, and the layout of its rows. -/
  | join (c : AggregateCommand) (layout : RowLayout)
  | update (c : UpdateCommand)
  | delete (c : DeleteCommand)
  | count (c : CountCommand)
  /-- The number of rows of a joined read. -/
  | joinCount (c : AggregateCommand)
  /-- A reduction to one value, which the first document holds under `QueryPlan.resultKey`. -/
  | group (c : AggregateCommand)

namespace QueryPlan

/-- The key under which a reduction holds its value. -/
def resultKey : String := "n"

/-- The plain paths of several fields. -/
def plainPaths : List Field → Except Error (List String)
  | [] => .ok []
  | f :: fs => do
    let p ← f.plainPath
    let ps ← plainPaths fs
    pure (p :: ps)

theorem plainPaths_eq_mapM (fields : List Field) :
    plainPaths fields = fields.mapM Field.plainPath :=
  eq_mapM_of_cons (g := plainPaths) rfl (fun _ _ => rfl) fields

/-- Write the operands of a row under their keys, leaving the identity out. -/
def putOperands (d : Document) : List String → List Operand → Except Error Document
  | key :: keys, q :: qs =>
    if key = idKey then putOperands d keys qs
    else do
      let v ← q.encode
      putOperands (d.put key v) keys qs
  | _, _ => .ok d

/-- The operand written as the identity: the one of the first field that is the identity. -/
def idOperand? : List String → List Operand → Option Operand
  | key :: keys, q :: qs => if key = idKey then some q else idOperand? keys qs
  | _, _ => none

/-- The document of an input row, its identity first. -/
def rowDocument (keys : List String) (row : List Operand) : Except Error Document :=
  if row.length ≠ keys.length then .error (.rowShapeMismatch keys.length row.length)
  else
    match idOperand? keys row with
    | none => putOperands [] keys row
    | some q => do
      let id ← q.encode
      putOperands [(idKey, id)] keys row

/-- The documents of several input rows. -/
def rowDocuments (keys : List String) : List (List Operand) → Except Error (List Document)
  | [] => .ok []
  | row :: rows => do
    let d ← rowDocument keys row
    let ds ← rowDocuments keys rows
    pure (d :: ds)

theorem rowDocuments_eq_mapM (keys : List String) (rows : List (List Operand)) :
    rowDocuments keys rows = rows.mapM (rowDocument keys) :=
  eq_mapM_of_cons (g := rowDocuments keys) rfl (fun _ _ => rfl) rows

/-- The documents of the input rows, keyed by the plain paths of the fields. -/
def inputDocuments (fields : List Field) (input : List (List Operand)) :
    Except Error (List Document) := do
  let keys ← plainPaths fields
  rowDocuments keys input

/-- How many documents a deletion may remove. -/
def deleteScope : List Limit → Except Error DeleteScope
  | [] => .ok .all
  | .count 1 :: _ => .ok .one
  | _ :: _ => .error .unsupportedCustomLimit

/-- The accumulator of an aggregate that reduces the values of a field. -/
def accumulator? : AggregateFunction → Option String
  | .sum => some "$sum"
  | .average => some "$avg"
  | .minimum => some "$min"
  | .maximum => some "$max"
  | .count => none
  | .custom _ => none

/-- The stages that reduce the values of a field over the documents matching a filter. -/
def reduction (filter : Document) (accumulator path : String) : List Document :=
  [[("$match", .document filter)],
    [("$group", .document [
      (idKey, .null),
      (resultKey, .document [(accumulator, .string ("$" ++ path))])])]]

/-- The plan of an aggregate. -/
def ofAggregate (q : Query) : Aggregate → Except Error QueryPlan
  | .custom _ => .error .unsupportedCustomAggregate
  | .field f function =>
    match function with
    | .count =>
      match q.joins with
      | [] => do
        let filter ← Filter.compileList .plain q.filters
        pure (.count ⟨q.schema, filter⟩)
      | _ :: _ => do
        let p ← Pipeline.compile q
        pure (.joinCount ⟨q.schema, p.stages⟩)
    | function =>
      match accumulator? function with
      | none => .error .unsupportedCustomAggregate
      | some accumulator => do
        let path ← f.plainPath
        let filter ← Filter.compileList .plain q.filters
        pure (.group ⟨q.schema, reduction filter accumulator path⟩)

/-- The plan of a read: a plain one without joins, a pipeline with them. -/
def ofRead (q : Query) : Except Error QueryPlan :=
  match q.joins with
  | [] => do
    let filter ← Filter.compileList .plain q.filters
    let keys ← SortBy.compile .plain q.sorts
    let skip ← Limit.first q.offsets
    let limit ← Limit.first q.limits
    pure (.find q.schema ⟨q.schema, filter, keys.map (·.toDocument), skip, limit⟩)
  | _ :: _ => do
    let p ← Pipeline.compile q
    pure (.join ⟨q.schema, p.stages⟩ p.layout)

end QueryPlan

open QueryPlan in
/-- The plan of a query. -/
def Query.compile (q : Query) : Except Error QueryPlan :=
  match q.action with
  | .create => do
    let documents ← inputDocuments q.fields q.input
    pure (.insert ⟨q.schema, documents⟩)
  | .read => ofRead q
  | .update => do
    let filter ← Filter.compileList .plain q.filters
    let documents ← inputDocuments q.fields q.input
    pure (.update ⟨q.schema, documents.map fun d => ⟨filter, [("$set", .document d)], true⟩⟩)
  | .delete => do
    let limit ← deleteScope q.limits
    let filter ← Filter.compileList .plain q.filters
    pure (.delete ⟨q.schema, filter, limit⟩)
  | .aggregate a => ofAggregate q a
  | .custom _ => .error .unsupportedCustomAction

end DocQuery
