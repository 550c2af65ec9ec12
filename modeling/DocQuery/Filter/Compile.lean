import DocQuery.Filter

/-!
# Query documents of filters

`Filter.compile` turns a filter into a query document. Comparisons become operators on a
path, comparisons of two fields an expression, groups a connective. A group of one member is that
member; an empty group of all matches everything, an empty group of any nothing. The list of a
query's filters is compiled in the same way, as members that must all hold.
-/

namespace DocQuery

/-- The operator of a comparison. Containment has none; it is a pattern. -/
def FieldTest.operator : FieldTest → Except Error String
  | .equality inverse => .ok (if inverse then "$ne" else "$eq")
  | .order false false => .ok "$gt"
  | .order false true => .ok "$gte"
  | .order true false => .ok "$lt"
  | .order true true => .ok "$lte"
  | .subset inverse => .ok (if inverse then "$nin" else "$in")
  | .contains _ _ => .error .unsupportedFilter
  | .custom _ => .error .unsupportedFilter

/-- The operator of a comparison between fields, which is of equality or order. -/
def FieldTest.fieldOperator : FieldTest → Except Error String
  | .equality inverse => FieldTest.operator (.equality inverse)
  | .order inverse orEqual => FieldTest.operator (.order inverse orEqual)
  | _ => .error .unsupportedFilter

/-- The pattern of a containment. The text searched for stands in it as it is. -/
def Location.pattern (location : Location) (needle : String) : String :=
  match location with
  | .anywhere => ".*" ++ needle ++ ".*"
  | .atStart => needle ++ ".*"
  | .atEnd => ".*" ++ needle

namespace Filter

/-- The query document that matches everything. -/
def matchAll : Document := []

/-- The query document that matches nothing: none of a list of one that matches everything. -/
def matchNone : Document := [("$nor", .array [.document matchAll])]

/-- The query document of a comparison with an operand. -/
def compileValue (path : String) (test : FieldTest) (operand : Operand) :
    Except Error Document :=
  match test with
  | .contains inverse location =>
    match operand with
    | .bind (.string needle) =>
      let pattern : Value := .document [("$regex", .string (location.pattern needle))]
      .ok [(path, if inverse then .document [("$not", pattern)] else pattern)]
    | _ => .error .unsupportedFilterValue
  | test => do
    let operator ← test.operator
    let v ← operand.encode
    pure [(path, .document [(operator, v)])]

/-- The query document of a comparison between fields. -/
def compileFields (mode : Addressing) (lhs : Field) (test : FieldTest) (rhs : Field) :
    Except Error Document := do
  let operator ← test.fieldOperator
  let l ← lhs.resolve mode
  let r ← rhs.resolve mode
  pure [("$expr", .document [(operator, .array [.string ("$" ++ l), .string ("$" ++ r)])])]

/-- Members that must all hold, as one query document. -/
def combineAll : List Document → Document
  | [] => matchAll
  | [d] => d
  | ds => [("$and", .array (ds.map .document))]

/-- Members of which one must hold, as one query document. -/
def combineAny : List Document → Document
  | [] => matchNone
  | [d] => d
  | ds => [("$or", .array (ds.map .document))]

mutual

/-- The query document of a filter. -/
def compile (mode : Addressing) : Filter → Except Error Document
  | .value field test operand => do
    let path ← field.resolve mode
    compileValue path test operand
  | .fields lhs test rhs => compileFields mode lhs test rhs
  | .group filters .all => do
    let ds ← compileEach mode filters
    pure (combineAll ds)
  | .group filters .any => do
    let ds ← compileEach mode filters
    pure (combineAny ds)
  | .group _ (.custom _) => .error .unsupportedCustomFilter
  | .raw document => .ok document
  | .otherBackend _ => .error .unsupportedCustomFilter

/-- The query documents of several filters. -/
def compileEach (mode : Addressing) : List Filter → Except Error (List Document)
  | [] => .ok []
  | f :: fs => do
    let d ← compile mode f
    let ds ← compileEach mode fs
    pure (d :: ds)

end

theorem compileEach_eq_mapM (mode : Addressing) (filters : List Filter) :
    compileEach mode filters = filters.mapM (compile mode) :=
  eq_mapM_of_cons (g := compileEach mode) rfl (fun _ _ => rfl) filters

/-- The query document of a query's filters, which must all hold. -/
def compileList (mode : Addressing) (filters : List Filter) : Except Error Document := do
  let ds ← compileEach mode filters
  pure (combineAll ds)

end Filter

end DocQuery
