import DocQuery.Filter.Compile
import DocQuery.Query

/-!
# Pipelines

A joined read runs as a sequence of stages over the base collection. The first stage nests each
document under the name of its collection, so that documents of other collections can stand beside
it; each join looks its documents up and, if it is required, unwinds them; then the rows are
filtered, sorted, cut to the page and projected.
-/

namespace DocQuery

/-- The stages of a joined read, and the layout of its rows. -/
structure Pipeline where
  stages : List Document
  layout : RowLayout

namespace Pipeline

/-- Nest each document under the name of its collection. -/
def rootStage (schema : String) : Document :=
  [("$replaceRoot", .document [("newRoot", .document [(schema, .string "$$ROOT")])])]

/-- Attach the matching foreign documents as a list. -/
def lookupStage (l : Lookup) : Document :=
  [("$lookup", .document [
    ("from", .string l.schema),
    ("localField", .string l.localPath),
    ("foreignField", .string l.foreignPath),
    ("as", .string l.key)])]

/-- Repeat a row for each document that a join attached. -/
def unwindStage (l : Lookup) : Document := [("$unwind", .string ("$" ++ l.key))]

/-- The stages of a join. -/
def lookupStages (l : Lookup) : List Document :=
  if l.required then [lookupStage l, unwindStage l] else [lookupStage l]

/-- The stage of a filter; one that matches everything needs none. -/
def filterStages (filter : Document) : List Document :=
  if filter.isEmpty then [] else [[("$match", .document filter)]]

/-- The stage of a sort, if there is one. -/
def sortStages (keys : Option SortKeys) : List Document :=
  match keys with
  | none => []
  | some keys => [[("$sort", .document keys.toDocument)]]

/-- A number of rows as a stage writes it: the largest signed number stands for all above it. -/
def rowCount (n : UInt64) : Value := .int64 (Int64.ofNat (min n.toNat 0x7FFFFFFFFFFFFFFF))

/-- The stage that skips rows, if there is one. -/
def skipStages (offset : Option UInt64) : List Document :=
  match offset with
  | none => []
  | some n => [[("$skip", rowCount n)]]

/-- The stage that limits rows, if there is one. -/
def limitStages (limit : Option UInt64) : List Document :=
  match limit with
  | none => []
  | some n => [[("$limit", rowCount n)]]

/-- The projection that lists the given paths. -/
def listing (paths : List String) : Document := paths.foldl (fun d p => d.put p (.int32 1)) []

/-- The paths that a query asks for, qualified. -/
def qualifiedPaths : List Field → Except Error (List String)
  | [] => .ok []
  | f :: fs => do
    let p ← f.qualifiedPath
    let ps ← qualifiedPaths fs
    pure (p :: ps)

theorem qualifiedPaths_eq_mapM (fields : List Field) :
    qualifiedPaths fields = fields.mapM Field.qualifiedPath :=
  eq_mapM_of_cons (g := qualifiedPaths) rfl (fun _ _ => rfl) fields

/-- What a row keeps: the fields asked for, or the base document and all joined ones. -/
def projection (q : Query) (ls : List Lookup) : Except Error Document :=
  match q.fields with
  | [] => .ok (listing (q.schema :: ls.map (·.key)))
  | fs => do
    let ps ← qualifiedPaths fs
    pure (listing ps)

/-- The stage that projects rows. -/
def projectStage (listed : Document) : Document := [("$project", .document listed)]

/-- The pipeline of a joined read. -/
def compile (q : Query) : Except Error Pipeline := do
  let ls ← Join.lookups q.joins
  let filter ← Filter.compileList .qualified q.filters
  let keys ← SortBy.compile .qualified q.sorts
  let offset ← Limit.first q.offsets
  let limit ← Limit.first q.limits
  let listed ← projection q ls
  pure {
    stages := rootStage q.schema :: ls.flatMap lookupStages ++ filterStages filter ++
      sortStages keys ++ skipStages offset ++ limitStages limit ++ [projectStage listed]
    layout := .ofLookups ls }

end Pipeline

end DocQuery
