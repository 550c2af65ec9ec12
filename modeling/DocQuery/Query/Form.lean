import DocQuery.Filter.Form
import DocQuery.Query

/-!
# Queries in JSON
-/

namespace DocQuery

namespace SortDirection

/-- A direction in JSON. -/
def toJson : SortDirection → Json
  | .ascending => .string "Ascending"
  | .descending => .string "Descending"
  | .custom v => .variant "Custom" v.toJson

/-- The direction that JSON stands for. -/
def ofJson? (j : Json) : Option SortDirection := do
  let (name, content) ← j.variant?
  match name with
  | "Ascending" => (Json.bare? content).map fun () => .ascending
  | "Descending" => (Json.bare? content).map fun () => .descending
  | "Custom" => (content.bind Value.ofJson?).map .custom
  | _ => none

end SortDirection

namespace SortBy

/-- A sort in JSON. -/
def toJson : SortBy → Json
  | .field f direction => .variant "Sort" (.object [
      ("field", f.toJson), ("direction", direction.toJson)])
  | .custom text => .variant "Custom" (.string text)

/-- The sort that JSON stands for. -/
def ofJson? (j : Json) : Option SortBy := do
  let (name, content) ← j.variant?
  let content ← content
  match name with
  | "Sort" =>
    match ← Json.fields? ["field", "direction"] content with
    | [f, direction] => do
      let f ← f.bind Field.ofJson?
      let direction ← direction.bind SortDirection.ofJson?
      pure (.field f direction)
    | _ => none
  | "Custom" => (Json.string? content).map .custom
  | _ => none

end SortBy

namespace JoinKind

/-- A join kind in JSON. -/
def toJson : JoinKind → Json
  | .inner => .string "Inner"
  | .left => .string "Left"
  | .custom name => .variant "Custom" (.string name)

/-- The join kind that JSON stands for. -/
def ofJson? (j : Json) : Option JoinKind := do
  let (name, content) ← j.variant?
  match name with
  | "Inner" => (Json.bare? content).map fun () => .inner
  | "Left" => (Json.bare? content).map fun () => .left
  | "Custom" => (content.bind Json.string?).map .custom
  | _ => none

end JoinKind

namespace Join

/-- A join in JSON. -/
def toJson : Join → Json
  | .equality schema alias? kind foreignField localField => .variant "Join" (.object [
      ("schema", .string schema), ("alias", .ofOption .string alias?), ("method", kind.toJson),
      ("foreign", foreignField.toJson), ("local", localField.toJson)])
  | .advanced schema alias? kind conditions => .variant "Advanced" (.object [
      ("schema", .string schema), ("alias", .ofOption .string alias?), ("method", kind.toJson),
      ("conditions", .ofList Filter.toJson conditions)])
  | .custom text => .variant "Custom" (.string text)

/-- The join that JSON stands for. -/
def ofJson? (j : Json) : Option Join := do
  let (name, content) ← j.variant?
  let content ← content
  match name with
  | "Join" =>
    match ← Json.fields? ["schema", "alias", "method", "foreign", "local"] content with
    | [schema, alias?, kind, foreignField, localField] => do
      let schema ← schema.bind Json.string?
      let alias? ← Json.optional? Json.string? alias?
      let kind ← kind.bind JoinKind.ofJson?
      let foreignField ← foreignField.bind Field.ofJson?
      let localField ← localField.bind Field.ofJson?
      pure (.equality schema alias? kind foreignField localField)
    | _ => none
  | "Advanced" =>
    match ← Json.fields? ["schema", "alias", "method", "conditions"] content with
    | [schema, alias?, kind, conditions] => do
      let schema ← schema.bind Json.string?
      let alias? ← Json.optional? Json.string? alias?
      let kind ← kind.bind JoinKind.ofJson?
      let conditions ← conditions.bind (Json.list? Filter.ofJson?)
      pure (.advanced schema alias? kind conditions)
    | _ => none
  | "Custom" => (Json.string? content).map .custom
  | _ => none

end Join

namespace Limit

/-- A limit in JSON. -/
def toJson : Limit → Json
  | .count n => .variant "Count" (.int n.toNat)
  | .custom text => .variant "Custom" (.string text)

/-- The limit that JSON stands for. -/
def ofJson? (j : Json) : Option Limit := do
  let (name, content) ← j.variant?
  let content ← content
  match name with
  | "Count" => content.uint64?.map .count
  | "Custom" => content.string?.map .custom
  | _ => none

end Limit

namespace AggregateFunction

/-- An aggregate's function in JSON. -/
def toJson : AggregateFunction → Json
  | .count => .string "Count"
  | .sum => .string "Sum"
  | .average => .string "Average"
  | .minimum => .string "Minimum"
  | .maximum => .string "Maximum"
  | .custom name => .variant "Custom" (.string name)

/-- The aggregate's function that JSON stands for. -/
def ofJson? (j : Json) : Option AggregateFunction := do
  let (name, content) ← j.variant?
  match name with
  | "Custom" => (content.bind Json.string?).map .custom
  | name => do
    let () ← Json.bare? content
    match name with
    | "Count" => some .count
    | "Sum" => some .sum
    | "Average" => some .average
    | "Minimum" => some .minimum
    | "Maximum" => some .maximum
    | _ => none

end AggregateFunction

namespace Aggregate

/-- An aggregate in JSON. -/
def toJson : Aggregate → Json
  | .field f function => .variant "Field" (.object [
      ("field", f.toJson), ("method", function.toJson)])
  | .custom text => .variant "Custom" (.string text)

/-- The aggregate that JSON stands for. -/
def ofJson? (j : Json) : Option Aggregate := do
  let (name, content) ← j.variant?
  let content ← content
  match name with
  | "Field" =>
    match ← Json.fields? ["field", "method"] content with
    | [f, function] => do
      let f ← f.bind Field.ofJson?
      let function ← function.bind AggregateFunction.ofJson?
      pure (.field f function)
    | _ => none
  | "Custom" => content.string?.map .custom
  | _ => none

end Aggregate

namespace Action

/-- An action in JSON. -/
def toJson : Action → Json
  | .create => .string "Create"
  | .read => .string "Read"
  | .update => .string "Update"
  | .delete => .string "Delete"
  | .aggregate a => .variant "Aggregate" a.toJson
  | .custom name => .variant "Custom" (.string name)

/-- The action that JSON stands for. -/
def ofJson? (j : Json) : Option Action := do
  let (name, content) ← j.variant?
  match name with
  | "Aggregate" => (content.bind Aggregate.ofJson?).map .aggregate
  | "Custom" => (content.bind Json.string?).map .custom
  | name => do
    let () ← Json.bare? content
    match name with
    | "Create" => some .create
    | "Read" => some .read
    | "Update" => some .update
    | "Delete" => some .delete
    | _ => none

end Action

namespace Query

/-- The names of a query's fields. -/
def memberNames : List String :=
  ["schema", "action", "fields", "filters", "input", "joins", "sorts", "limits", "offsets"]

/-- A query in JSON. -/
def toJson (q : Query) : Json := .object [
  ("schema", .string q.schema),
  ("action", q.action.toJson),
  ("fields", .ofList Field.toJson q.fields),
  ("filters", .ofList Filter.toJson q.filters),
  ("input", .ofList (.ofList Operand.toJson) q.input),
  ("joins", .ofList Join.toJson q.joins),
  ("sorts", .ofList SortBy.toJson q.sorts),
  ("limits", .ofList Limit.toJson q.limits),
  ("offsets", .ofList Limit.toJson q.offsets)]

/-- The query that JSON stands for. -/
def ofJson? (j : Json) : Option Query := do
  match ← Json.fields? memberNames j with
  | [schema, action, fields, filters, input, joins, sorts, limits, offsets] => do
    let schema ← schema.bind Json.string?
    let action ← action.bind Action.ofJson?
    let fields ← fields.bind (Json.list? Field.ofJson?)
    let filters ← filters.bind (Json.list? Filter.ofJson?)
    let input ← input.bind (Json.list? (Json.list? Operand.ofJson?))
    let joins ← joins.bind (Json.list? Join.ofJson?)
    let sorts ← sorts.bind (Json.list? SortBy.ofJson?)
    let limits ← limits.bind (Json.list? Limit.ofJson?)
    let offsets ← offsets.bind (Json.list? Limit.ofJson?)
    pure ⟨schema, action, fields, filters, input, joins, sorts, limits, offsets⟩
  | _ => none

end Query

end DocQuery
