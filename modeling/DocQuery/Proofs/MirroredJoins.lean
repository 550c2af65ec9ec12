import DocQuery.Proofs.ConditionSides
import DocQuery.Proofs.CopiedPaths
import DocQuery.Proofs.Equality
import DocQuery.Proofs.JoinedRows
import DocQuery.Runtime.Regex.Engine
import Mathlib.Data.List.Perm.Basic

/-!
# Inner joins read from either side

An inner join on the equality of two fields delivers the pairs of documents whose values meet. The
test does not look symmetric: the values that the base document has at its field, the elements of
an array one by one, are sought among those of the foreign document, where an array counts as its
elements and as itself, and a value that is absent counts as null. It is symmetric for values that
hold no array directly inside an array (`Value.meets_comm`), since then no array is sought.

So reading the one collection and joining the other delivers the same pairs as reading the other
and joining the one, each as often (`Database.execute_innerRead_comm`). Their order differs: rows
come in the order of the collection that is read, so the two reads go through one table by rows and
by columns (`perm_marked`).
-/

namespace DocQuery

/-! ### Values that meet -/

namespace Value

/-- The values that a join seeks for a row: the elements of an array, or the value, which is null
where nothing is. -/
def sought : Option Value → List Value
  | none => [.null]
  | some (.array items) => items
  | some v => [v]

/-- Whether a join finds a foreign document with the second value for a row with the first. -/
def meets (v w : Option Value) : Bool := (sought v).any (isEqualTo · w)

/-- No array is sought, as no array stands directly inside the value if that is an array. -/
def SeeksNoArray (v : Option Value) : Prop := ∀ x ∈ sought v, x.isArray = false

instance (v : Option Value) : Decidable (SeeksNoArray v) :=
  inferInstanceAs (Decidable (∀ x ∈ sought v, x.isArray = false))

/-- Only an array is equal to an array. -/
private theorem equal_array_of_not_isArray {x : Value} (hx : x.isArray = false)
    (items : List Value) :
    (array items).equal x = false := by
  rcases x with a | xs | d
  · rfl
  · cases hx
  · rfl

/-- What is no array is found among the values that a join seeks. -/
private theorem isEqualTo_eq_any_sought {x : Value} (hx : x.isArray = false) (w : Option Value) :
    isEqualTo x w = (sought w).any (·.equal x) := by
  rw [← isEqualTo_getD_null]
  rcases w with _ | (a | items | d)
  · exact (Bool.or_false _).symm
  · exact (Bool.or_false _).symm
  · change (items.any (·.equal x) || (array items).equal x) = _
    rw [equal_array_of_not_isArray hx, Bool.or_false]
    rfl
  · exact (Bool.or_false _).symm

/-- Where no array is sought, values meet when two that are sought for them are equal. -/
theorem meets_iff {v : Option Value} (hv : SeeksNoArray v) (w : Option Value) :
    meets v w = true ↔ ∃ x ∈ sought v, ∃ y ∈ sought w, y.equal x = true := by
  rw [meets, List.any_eq_true]
  refine exists_congr fun x => and_congr_right fun hx => ?_
  rw [isEqualTo_eq_any_sought (hv x hx), List.any_eq_true]

/-- **Meeting is symmetric** where no array is sought. -/
theorem meets_comm {v w : Option Value} (hv : SeeksNoArray v) (hw : SeeksNoArray w) :
    meets v w = meets w v := by
  rw [Bool.eq_iff_iff, meets_iff hv, meets_iff hw]
  constructor
  · rintro ⟨x, hx, y, hy, hequal⟩
    exact ⟨y, hy, x, hx, by rwa [equal_comm]⟩
  · rintro ⟨y, hy, x, hx, hequal⟩
    exact ⟨x, hx, y, hy, by rwa [equal_comm]⟩

end Value

/-! ### Pairs -/

/-- The pairs of documents of two collections whose values at two paths meet, in the order of the
first collection, and for one document of it in the order of the second. -/
def meetingPairs (path other : String) (ds es : List Document) : List (Document × Document) :=
  ds.flatMap fun d => (es.filter fun e => Value.meets (d.read? path) (e.read? other)).map (d, ·)

/-- The marked pairs of a row or a column are those of its single places. -/
private theorem map_filter_eq_flatMap {α β : Type} (r : α → Bool) (f : α → β) (xs : List α) :
    (xs.filter r).map f = xs.flatMap fun x => if r x then [f x] else [] := by
  induction xs with
  | nil => rfl
  | cons x xs ih =>
    rw [List.filter_cons, List.flatMap_cons, ← ih]
    split <;> rfl

/-- The marked pairs of a table are the same by rows and by columns. -/
theorem perm_marked {α β : Type} (r : α → β → Bool) (xs : List α) (ys : List β) :
    (xs.flatMap fun x => (ys.filter (r x)).map (x, ·)).Perm
      (ys.flatMap fun y => (xs.filter (r · y)).map (·, y)) := by
  induction xs with
  | nil => simp
  | cons x xs ih =>
    -- The first row has one place in each column, above the others of this column.
    have hcolumn : (fun y => ((x :: xs).filter (r · y)).map (·, y)) =
        fun y => (if r x y then [(x, y)] else []) ++ (xs.filter (r · y)).map (·, y) := by
      funext y
      rw [List.filter_cons]
      split <;> rfl
    rw [List.flatMap_cons, map_filter_eq_flatMap, hcolumn]
    exact (ih.append_left _).trans (List.flatMap_append_perm ys _ _)

/-- **Meeting pairs** are the same from either side, where no array is sought. -/
theorem perm_meetingPairs {path other : String} {ds es : List Document}
    (hds : ∀ d ∈ ds, Value.SeeksNoArray (d.read? path))
    (hes : ∀ e ∈ es, Value.SeeksNoArray (e.read? other)) :
    (meetingPairs path other ds es).Perm ((meetingPairs other path es ds).map Prod.swap) := by
  have hmirrored : (meetingPairs other path es ds).map Prod.swap =
      es.flatMap fun e =>
        (ds.filter fun d => Value.meets (d.read? path) (e.read? other)).map (·, e) := by
    rw [meetingPairs, List.map_flatMap]
    refine congrArg List.flatten (List.map_congr_left fun e he => ?_)
    rw [List.map_map]
    refine congrArg (List.map _) (List.filter_congr fun d hd => ?_)
    exact Value.meets_comm (hes e he) (hds d hd)
  rw [hmirrored]
  exact perm_marked _ ds es

/-! ### Reads -/

namespace Lookup

/-- A required join of one collection makes a row of each pair of documents that meet. -/
private theorem joinedRows_meetingPairs {base schema path other : String} (hbase : Path.IsKey base)
    (documents : String → List Document) :
    joinedRows documents base [⟨schema, schema, Path.through base path, other, true⟩] =
      (meetingPairs path other (documents base) (documents schema)).map fun p =>
        [(base, .document p.1), (schema, .document p.2)] := by
  have hagrees : ∀ d : Document,
      Lookup.agrees ⟨schema, schema, Path.through base path, other, true⟩ (d.under base) =
        fun e => Value.meets (d.read? path) (e.read? other) := by
    intro d
    funext e
    rw [agrees, Document.read?_through hbase]
    rcases d.read? path with _ | (a | items | d) <;> rfl
  rw [joinedRows, extendAll, List.foldl_cons, List.foldl_nil, List.flatMap_map, meetingPairs,
    List.map_flatMap]
  refine congrArg List.flatten (List.map_congr_left fun d _ => ?_)
  rw [extend, if_pos rfl, hagrees, List.map_map]
  rfl

end Lookup

/-- A read of a collection with an inner join of another, on the equality of two fields. -/
def Query.innerRead (base schema : String) (foreignField localField : Field) : Query :=
  (Query.read base).withJoin (.inner schema foreignField localField)

/-- The row of a pair of documents, of which the second was joined to the first. -/
def Row.ofPair (base schema : String) (p : Document × Document) : Row :=
  .ofJoined [(schema, ⟨schema, schema⟩)] [(base, .document p.1), (schema, .document p.2)]

/-- A name that a collection can have in rows: it is no path of several keys and no operator, and
it is not the key of identities. -/
structure IsRowName (name : String) : Prop where
  isKey : Path.IsKey name
  ne_idKey : name ≠ idKey
  not_isOperator : isOperator name = false

namespace Database

variable {db : Database} {s : Server} {cat : Catalog} {base schema path other : String}
  {localField foreignField : Field}

/-- **An inner join** of two collections delivers the pairs of their documents that meet. -/
theorem execute_innerRead [RegexEngine] (hsound : db.connection.faults = none)
    (hcat : s.store.catalog? db.connection.handle = some cat)
    (hbase : IsRowName base) (hschema : IsRowName schema) (hne : base ≠ schema)
    (hlocal : localField.BelongsTo base) (hpath : localField.plainPath = .ok path)
    (hother : foreignField.plainPath = .ok other) :
    (db.execute (.innerRead base schema foreignField localField) s).1 =
      ⟨(meetingPairs path other (cat.collection base).documents
        (cat.collection schema).documents).map (.ofPair base schema), .ok ()⟩ := by
  have hqualified : localField.qualifiedPath = .ok (Path.through base path) := by
    have hresolve := Field.resolve_qualified hlocal
    rw [Field.resolve, Field.resolve, hpath] at hresolve
    exact hresolve
  have hls : Join.lookups [.inner schema foreignField localField] =
      .ok [⟨schema, schema, Path.through base path, other, true⟩] := by
    rw [Join.lookups, Join.inner, Join.lookup_equality, hqualified, hother]
    rfl
  have hkeys : Lookup.Separate base [⟨schema, schema, Path.through base path, other, true⟩] :=
    ⟨by simpa using hne, by simp [hbase.isKey, hschema.isKey],
      by simp [hbase.ne_idKey.symm, hschema.ne_idKey.symm],
      by simp [hbase.not_isOperator, hschema.not_isOperator]⟩
  have hrows := execute_wholeJoin (q := .innerRead base schema foreignField localField) hsound hcat
    rfl (List.cons_ne_nil _ _) rfl (Query.selection_everything .qualified rfl rfl rfl rfl) hls hkeys
  rw [hrows]
  change Outcome.mk ((joinedRows _ base _).map _) _ = _
  rw [Lookup.joinedRows_meetingPairs hbase.isKey, List.map_map]
  rfl

/-- **Inner joins are symmetric.** Take two collections and a field of each, where no value at the
field in its collection holds an array directly inside an array. Reading the first with the second
joined to it delivers the pairs of their documents that meet, and so does reading the second with
the first joined to it: each pair as often, in an order of its own. -/
theorem execute_innerRead_comm [RegexEngine] (hsound : db.connection.faults = none)
    (hcat : s.store.catalog? db.connection.handle = some cat)
    (hbase : IsRowName base) (hschema : IsRowName schema) (hne : base ≠ schema)
    (hlocal : localField.BelongsTo base) (hforeign : foreignField.BelongsTo schema)
    (hpath : localField.plainPath = .ok path) (hother : foreignField.plainPath = .ok other)
    (hitems : ∀ d ∈ (cat.collection base).documents, Value.SeeksNoArray (d.read? path))
    (hitems' : ∀ e ∈ (cat.collection schema).documents, Value.SeeksNoArray (e.read? other)) :
    let pairs := meetingPairs path other (cat.collection base).documents
      (cat.collection schema).documents
    let mirrored := meetingPairs other path (cat.collection schema).documents
      (cat.collection base).documents
    (db.execute (.innerRead base schema foreignField localField) s).1 =
        ⟨pairs.map (.ofPair base schema), .ok ()⟩ ∧
      (db.execute (.innerRead schema base localField foreignField) s).1 =
        ⟨mirrored.map (.ofPair schema base), .ok ()⟩ ∧
      pairs.Perm (mirrored.map Prod.swap) :=
  ⟨execute_innerRead hsound hcat hbase hschema hne hlocal hpath hother,
    execute_innerRead hsound hcat hschema hbase hne.symm hforeign hother hpath,
    perm_meetingPairs hitems hitems'⟩

/-- A note with tags. -/
def taggedNote : Document := [(idKey, .int32 1), ("tags", .array [.string "x", .string "y"])]

/-- A note without tags. -/
def plainNote : Document := [(idKey, .int32 2)]

/-- A label without a name. -/
def blankLabel : Document := [(idKey, .int32 1), ("name", .null)]

/-- A label that is one of the tags. -/
def namedLabel : Document := [(idKey, .int32 2), ("name", .string "y")]

/-- Notes and labels. -/
def labelledCatalog : Catalog :=
  ⟨[("notes", ⟨[taggedNote, plainNote], []⟩), ("labels", ⟨[blankLabel, namedLabel], []⟩)]⟩

attribute [local instance] Runtime.engine

/-- A tag meets the label of its name, and a note without tags the label without a name. The reads
of notes and of labels deliver these two pairs in different orders. -/
theorem execute_innerRead_comm_labelledNotes :
    let db := ofConnection .sound
    let s : Server := ⟨⟨labelledCatalog, [], []⟩, 0⟩
    let tags : Field := .single (.name "tags") "notes"
    let name : Field := .single (.name "name") "labels"
    (db.execute (.innerRead "notes" "labels" name tags) s).1 =
        ⟨[.ofPair "notes" "labels" (taggedNote, namedLabel),
          .ofPair "notes" "labels" (plainNote, blankLabel)], .ok ()⟩ ∧
      (db.execute (.innerRead "labels" "notes" tags name) s).1 =
        ⟨[.ofPair "labels" "notes" (blankLabel, plainNote),
          .ofPair "labels" "notes" (namedLabel, taggedNote)], .ok ()⟩ ∧
      [(taggedNote, namedLabel), (plainNote, blankLabel)].Perm
        [(plainNote, blankLabel), (taggedNote, namedLabel)] := by
  intro db s tags name
  have hcat : s.store.catalog? db.connection.handle = some labelledCatalog := rfl
  have hnotes : IsRowName "notes" := ⟨by decide, by decide, by decide⟩
  have hlabels : IsRowName "labels" := ⟨by decide, by decide, by decide⟩
  have hpairs : meetingPairs "tags" "name" [taggedNote, plainNote] [blankLabel, namedLabel] =
      [(taggedNote, namedLabel), (plainNote, blankLabel)] := by decide +kernel
  have hmirrored : meetingPairs "name" "tags" [blankLabel, namedLabel] [taggedNote, plainNote] =
      [(blankLabel, plainNote), (namedLabel, taggedNote)] := by decide +kernel
  obtain ⟨hforth, hback, hperm⟩ := @execute_innerRead_comm db s labelledCatalog "notes" "labels"
    "tags" "name" tags name _ rfl hcat hnotes hlabels (by decide) rfl rfl rfl rfl (by decide)
    (by decide)
  change _ = Outcome.mk ((meetingPairs "tags" "name" _ _).map _) _ at hforth
  change _ = Outcome.mk ((meetingPairs "name" "tags" _ _).map _) _ at hback
  exact ⟨hforth.trans (congrArg (Outcome.mk · _) (congrArg (List.map _) hpairs)),
    hback.trans (congrArg (Outcome.mk · _) (congrArg (List.map _) hmirrored)),
    hpairs ▸ hperm.trans (.of_eq (congrArg (List.map _) hmirrored))⟩

end Database

end DocQuery
