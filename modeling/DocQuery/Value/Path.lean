import DocQuery.Value

/-!
# Dotted paths

A dotted path names a place inside a document by the keys that lead to it. Reading goes through
documents by key and through arrays element by element: the result is then the array of what the
elements hold, the elements without the place left out. Writing and removing go through documents
only; writing replaces whatever else stands on the way by documents.
-/

namespace DocQuery

/-- The key under which every stored document is identified. -/
def idKey : String := "_id"

namespace Path

/-- Split at every dot; there is always at least one segment. -/
def splitDots : List Char → List (List Char)
  | [] => [[]]
  | c :: cs =>
    if c = '.' then [] :: splitDots cs
    else
      match splitDots cs with
      | [] => [[c]]
      | s :: ss => (c :: s) :: ss

/-- The keys named by a dotted path. -/
def segments (path : String) : List String := (splitDots path.toList).map String.ofList

/-- The dotted path through the given keys. -/
def ofKeys : List String → String
  | [] => ""
  | [k] => k
  | k :: l :: ks => k ++ "." ++ ofKeys (l :: ks)

theorem splitDots_ne_nil (cs : List Char) : splitDots cs ≠ [] := by
  fun_induction splitDots cs <;> simp_all

end Path

namespace Value

mutual

/-- The value reached by following keys. -/
def follow? : Value → List String → Option Value
  | v, [] => some v
  | .document d, k :: ks => followEntries? d k ks
  | .array xs, k :: ks => some (.array (followItems xs (k :: ks)))
  | .atom _, _ :: _ => none

/-- Follow a key of a document, then the keys after it. -/
def followEntries? : List (String × Value) → String → List String → Option Value
  | [], _, _ => none
  | (k', v) :: d, k, ks => if k' = k then follow? v ks else followEntries? d k ks

/-- What the elements of an array hold, without those that hold nothing. -/
def followItems : List Value → List String → List Value
  | [], _ => []
  | v :: vs, ks =>
    match follow? v ks with
    | some w => w :: followItems vs ks
    | none => followItems vs ks

end

@[simp] theorem follow?_nil (v : Value) : follow? v [] = some v := by
  cases v <;> simp [follow?]

theorem followEntries?_eq (d : Document) (k : String) (ks : List String) :
    followEntries? d k ks = (d.value? k).bind (follow? · ks) := by
  induction d with
  | nil => simp [followEntries?]
  | cons e d ih =>
    obtain ⟨k', v⟩ := e
    simp only [followEntries?, Document.value?_cons, ih]
    split <;> simp

theorem followItems_eq (xs : List Value) (ks : List String) :
    followItems xs ks = xs.filterMap (follow? · ks) := by
  induction xs with
  | nil => simp [followItems]
  | cons v vs ih =>
    simp only [followItems, List.filterMap_cons, ih]
    split <;> simp_all

theorem follow?_document (d : Document) (k : String) (ks : List String) :
    follow? (.document d) (k :: ks) = (d.value? k).bind (follow? · ks) := by
  simp [follow?, followEntries?_eq]

theorem follow?_array (xs : List Value) (k : String) (ks : List String) :
    follow? (.array xs) (k :: ks) = some (.array (xs.filterMap (follow? · (k :: ks)))) := by
  simp [follow?, followItems_eq]

@[simp] theorem follow?_atom (a : Atom) (k : String) (ks : List String) :
    follow? (.atom a) (k :: ks) = none := by
  simp [follow?]

end Value

namespace Document

/-- The value at a dotted path. -/
def read? (d : Document) (path : String) : Option Value :=
  (Value.document d).follow? (Path.segments path)

/-- The document under a key, or the empty one where something else or nothing stands. -/
def child (d : Document) (key : String) : Document :=
  match d.value? key with
  | some (.document inner) => inner
  | _ => []

/-- Write a value at the place the keys lead to, making documents on the way. -/
def writeAt : List String → Document → Value → Document
  | [], d, _ => d
  | [k], d, v => d.put k v
  | k :: ks, d, v => d.put k (.document (writeAt ks (d.child k) v))

/-- Write a value at a dotted path, making documents on the way. -/
def write (d : Document) (path : String) (v : Value) : Document :=
  writeAt (Path.segments path) d v

/-- Remove the key at the end of the way, if the way leads through documents. -/
def removeAt : List String → Document → Document
  | [], d => d
  | [k], d => d.without k
  | k :: ks, d =>
    match d.value? k with
    | some (.document inner) => d.put k (.document (removeAt ks inner))
    | _ => d

/-- Remove what stands at a dotted path, if the way leads through documents. -/
def remove (d : Document) (path : String) : Document := removeAt (Path.segments path) d

end Document

end DocQuery
