import DocQuery.Grouping
import DocQuery.Matching
import DocQuery.Projection
import DocQuery.Sorting

/-!
# Pipeline stages

A pipeline is a list of stages, each a document of one entry: the name of the stage and its
specification. `Stage.ofDocument` reads a stage and `Stage.run` runs it over a list of documents;
a pipeline runs its stages in order, and a stage is read only when its turn has come.
-/

namespace DocQuery

/-- A stage of a pipeline. -/
inductive Stage where
  /-- Each document becomes the value of an expression. -/
  | replaceRoot (newRoot : Value)
  /-- Each document receives the documents of another collection that agree with it. -/
  | lookup (collection localPath foreignPath output : String)
  /-- Each document is repeated for the items of an array; without items it is dropped, unless
  such documents are preserved. -/
  | unwind (path : String) (preserve : Bool)
  | select (query : Document)
  | sort (keys : SortKeys)
  | skip (n : Nat)
  | limit (n : Nat)
  | project (spec : Document)
  | group (spec : Document)
  /-- The number of documents, unless there are none. -/
  | count (output : String)

namespace Stage

/-! ### Reading stages -/

/-- A text in a specification. -/
def textUnder (name : String) (spec : Document) (key : String) : Except StoreError String :=
  match spec.value? key with
  | some (.string s) => .ok s
  | _ => .error (.invalidOperand (name ++ "." ++ key))

/-- A number of documents. -/
def countOf (name : String) (v : Value) : Except StoreError Nat :=
  match v with
  | .atom a =>
    match a.int? with
    | some n => if 0 ≤ n then .ok n.toNat else .error (.invalidOperand name)
    | none => .error (.invalidOperand name)
  | _ => .error (.invalidOperand name)

/-- A path without the dollar sign that may stand before it. -/
def barePath (s : String) : String :=
  match s.toList with
  | '$' :: path => String.ofList path
  | _ => s

/-- Whether documents without items are preserved. -/
def preserves (options : Document) : Bool :=
  match options.value? "preserveNullAndEmptyArrays" with
  | some (.bool b) => b
  | _ => false

/-- A specification that must be a document. -/
def documentOf (name : String) (spec : Value) : Except StoreError Document :=
  match spec with
  | .document options => .ok options
  | _ => .error (.invalidOperand name)

/-- The stage that replaces each document. -/
def replaceRootOf (options : Document) : Except StoreError Stage :=
  match options.value? "newRoot" with
  | some newRoot => .ok (.replaceRoot newRoot)
  | none => .error (.invalidOperand "$replaceRoot.newRoot")

/-- The stage that attaches documents of another collection. -/
def lookupOf (options : Document) : Except StoreError Stage := do
  let collection ← textUnder "$lookup" options "from"
  let localPath ← textUnder "$lookup" options "localField"
  let foreignPath ← textUnder "$lookup" options "foreignField"
  let output ← textUnder "$lookup" options "as"
  pure (.lookup collection localPath foreignPath output)

/-- The stage that repeats documents for the items of an array. -/
def unwindOf (spec : Value) : Except StoreError Stage :=
  match spec with
  | .string path => .ok (.unwind (barePath path) false)
  | .document options => do
    let path ← textUnder "$unwind" options "path"
    pure (.unwind (barePath path) (preserves options))
  | _ => .error (.invalidOperand "$unwind")

/-- The stage of a name and a specification. -/
def ofEntry (name : String) (spec : Value) : Except StoreError Stage :=
  match name with
  | "$replaceRoot" => do
    let options ← documentOf name spec
    replaceRootOf options
  | "$lookup" => do
    let options ← documentOf name spec
    lookupOf options
  | "$unwind" => unwindOf spec
  | "$match" => do
    let query ← documentOf name spec
    pure (.select query)
  | "$sort" => do
    let options ← documentOf name spec
    let keys ← SortKeys.ofDocument options
    pure (.sort keys)
  | "$skip" => do
    let n ← countOf name spec
    pure (.skip n)
  | "$limit" => do
    let n ← countOf name spec
    pure (.limit n)
  | "$project" => do
    let options ← documentOf name spec
    pure (.project options)
  | "$group" => do
    let options ← documentOf name spec
    pure (.group options)
  | "$count" =>
    match spec with
    | .string output => .ok (.count output)
    | _ => .error (.invalidOperand name)
  | name => .error (.unsupportedStage name)

/-- The stage of a document. -/
def ofDocument (stage : Document) : Except StoreError Stage :=
  match stage with
  | [(name, spec)] => ofEntry name spec
  | _ => .error (.unsupportedStage stage.text)

/-! ### Running stages -/

/-- The documents that an expression computes from documents. -/
def replaceRoots (newRoot : Value) : List Document → Except StoreError (List Document)
  | [] => .ok []
  | d :: ds => do
    match ← newRoot.evaluate d with
    | .document root => do
      let roots ← replaceRoots newRoot ds
      pure (root :: roots)
    | _ => .error (.invalidOperand "$replaceRoot")

/-- Whether a foreign value agrees with a local one, or with an element of it. -/
def agrees (localValue foreignValue : Value) : Bool :=
  match localValue with
  | .array items => items.any (Value.equals (some foreignValue))
  | v => Value.equals (some foreignValue) v

/-- The value at a path, null if there is none. -/
def valueAt (d : Document) (path : String) : Value := (d.read? path).getD .null

/-- The foreign documents that agree with a document. -/
def partners (localPath foreignPath : String) (foreign : List Document) (d : Document) :
    List Document :=
  foreign.filter fun f => agrees (valueAt d localPath) (valueAt f foreignPath)

/-- A document for each item of the array at a path. -/
def unwound (path : String) (preserve : Bool) (d : Document) : List Document :=
  match d.read? path with
  | some (.array (item :: items)) => (item :: items).map (d.write path)
  | some (.array []) => if preserve then [d] else []
  | some .null => if preserve then [d] else []
  | none => if preserve then [d] else []
  | some _ => [d]

/-- Run a stage. Other collections are read by name. -/
def run [RegexEngine] (collection : String → List Document) (s : Stage) (ds : List Document) :
    Except StoreError (List Document) :=
  match s with
  | .replaceRoot newRoot => replaceRoots newRoot ds
  | .lookup name localPath foreignPath output =>
    .ok (ds.map fun d => d.write output
      (.array ((partners localPath foreignPath (collection name) d).map .document)))
  | .unwind path preserve => .ok (ds.flatMap (unwound path preserve))
  | .select query => Document.selectFrom query ds
  | .sort keys => .ok (keys.sort ds)
  | .skip n => .ok (ds.drop n)
  | .limit n => .ok (ds.take n)
  | .project spec => .ok (ds.map (Document.project spec))
  | .group spec => Document.groupBy spec ds
  | .count output =>
    match ds with
    | [] => .ok []
    | ds => .ok [[(output, .int64 (Int64.ofNat ds.length))]]

/-- Run the stages of a pipeline in order. -/
def runAll [RegexEngine] (collection : String → List Document) :
    (stages : List Document) → List Document → Except StoreError (List Document)
  | [], ds => .ok ds
  | stage :: stages, ds => do
    let s ← ofDocument stage
    let ds ← s.run collection ds
    runAll collection stages ds

end Stage

end DocQuery
