import DocQuery.Comparison
import DocQuery.Error
import DocQuery.Value.Path

/-!
# Updates

An update document either lists operators, by its first key, and changes paths of a document, or
replaces the document. A replaced document keeps its identity, as the first entry.
-/

namespace DocQuery.Document

/-- Write each value at its path, in order. -/
def writeEach (d : Document) (fields : Document) : Document :=
  fields.foldl (fun d e => d.write e.1 e.2) d

/-- Remove each path, in order. -/
def removeEach (d : Document) (paths : List String) : Document := paths.foldl remove d

/-- The replacement of a document. -/
def replacedBy (d replacement : Document) : Document :=
  let others := replacement.filter fun e => e.1 != idKey
  match d.value? idKey with
  | some id => (idKey, id) :: others
  | none => others

/-- Apply the operators of an update in order. -/
def applyOperators (d : Document) : List (String × Value) → Except StoreError Document
  | [] => .ok d
  | (name, operand) :: rest =>
    match operand with
    | .document fields =>
      match name with
      | "$set" => applyOperators (d.writeEach fields) rest
      | "$unset" => applyOperators (d.removeEach (keys fields)) rest
      | name => .error (.unknownOperator name)
    | _ => .error (.invalidOperand name)

/-- The document after an update. -/
def updatedBy (d update : Document) : Except StoreError Document :=
  if (keys update).head?.any isOperator then d.applyOperators update
  else .ok (d.replacedBy update)

end DocQuery.Document
