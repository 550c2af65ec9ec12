import DocQuery.Value.Order
import DocQuery.Value.Path

/-!
# Projections

A projection lists paths with flags. If a path other than the identity is flagged true, the result
holds the listed paths and, unless it is flagged false, the identity; otherwise the result is the
document without the paths flagged false. Listed paths go through the documents of an array,
which are then projected each, and everything else in the array is dropped.
-/

namespace DocQuery.Document

/-- The document at a position of an array that is being built, or an empty one. -/
def builtAt (built : Option Value) (i : Nat) : Document :=
  match built with
  | some (.array items) => ((items[i]?).bind Value.document?).getD []
  | _ => []

/-- Copy what a document holds at the end of a path into another. -/
def copyAt : List String → (target source : Document) → Document
  | [], target, _ => target
  | [k], target, source =>
    match source.value? k with
    | some v => target.put k v
    | none => target
  | k :: ks, target, source =>
    match source.value? k with
    | some (.document inner) => target.put k (.document (copyAt ks (target.child k) inner))
    | some (.array items) =>
      let built := target.value? k
      target.put k (.array ((items.filterMap Value.document?).mapIdx fun i item =>
        .document (copyAt ks (builtAt built i) item)))
    | _ => target

/-- Copy what a document holds at a dotted path into another. -/
def copy (path : String) (target source : Document) : Document :=
  copyAt (Path.segments path) target source

/-- The paths other than the identity that a projection flags true. -/
def listedPaths (spec : Document) : List String :=
  (spec.filter fun e => e.1 != idKey && e.2.countsAsTrue).map (·.1)

/-- The paths that a projection flags false. -/
def droppedPaths (spec : Document) : List String :=
  (spec.filter fun e => !e.2.countsAsTrue).map (·.1)

/-- Whether a projection that lists paths keeps the identity. -/
def keepsIdentity (spec : Document) : Bool := ((spec.value? idKey).map Value.countsAsTrue).getD true

/-- The identity of a document alone. -/
def identityOf (d : Document) : Document :=
  match d.value? idKey with
  | some v => [(idKey, v)]
  | none => []

/-- The document with the given paths alone, after its identity if that is kept. -/
def keepOnly (identity : Bool) (paths : List String) (d : Document) : Document :=
  paths.foldl (fun target path => copy path target d) (if identity then d.identityOf else [])

/-- The projection of a document. -/
def project (spec d : Document) : Document :=
  match listedPaths spec with
  | [] => (droppedPaths spec).foldl remove d
  | paths => keepOnly (keepsIdentity spec) paths d

theorem project_eq_keepOnly {spec : Document} (h : listedPaths spec ≠ []) (d : Document) :
    project spec d = keepOnly (keepsIdentity spec) (listedPaths spec) d := by
  unfold project
  split
  · next hnil => exact absurd hnil h
  · rfl

end DocQuery.Document
