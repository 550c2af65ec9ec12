import DocQuery.Proofs.StorageEquality

/-!
# Values and their parts

A value is made of values, at any depth (`Value.parts`). What holds of all parts of a document and
of all parts of a value is not lost when the value is written at a path of the document, provided
that documents keep it when something is put under a key (`Value.All.writeEach`).

One such property makes the equality of storage reflexive, which it is not otherwise: a NaN is not
equal to itself, and a key that stood twice would be found only once. Without either, a value is
regular, and the same as itself (`Value.same_self`).
-/

namespace DocQuery

namespace Value

section Induction

variable {p : Value → Prop} (atom : ∀ a, p (.atom a))
  (array : ∀ items : List Value, (∀ v ∈ items, p v) → p (.array items))
  (document : ∀ entries : Document, (∀ e ∈ entries, p e.2) → p (.document entries))

include atom array document

/-- What holds of arrays and documents whenever it holds of their members, and of atoms, holds of
all values. -/
@[elab_as_elim]
theorem induction (v : Value) : p v :=
  @Value.rec p (fun vs => ∀ v ∈ vs, p v) (fun es => ∀ e ∈ es, p e.2) (fun e => p e.2)
    atom array document
    nofun (fun _ _ hv hvs => List.forall_mem_cons.mpr ⟨hv, hvs⟩)
    nofun (fun _ _ he hes => List.forall_mem_cons.mpr ⟨he, hes⟩) (fun _ _ hv => hv) v

end Induction

/-! ### Parts -/

mutual

/-- The values in a value at any depth, itself among them. -/
def parts : Value → List Value
  | .atom a => [.atom a]
  | .array items => .array items :: partsOfItems items
  | .document d => .document d :: partsOfEntries d

/-- The values in several values. -/
def partsOfItems : List Value → List Value
  | [] => []
  | v :: vs => parts v ++ partsOfItems vs

/-- The values in the entries of a document. -/
def partsOfEntries : List (String × Value) → List Value
  | [] => []
  | (_, v) :: d => parts v ++ partsOfEntries d

end

/-- Something holds of all values in a value. -/
def All (p : Value → Prop) (v : Value) : Prop := ∀ part ∈ v.parts, p part

section All

variable {p : Value → Prop}

private theorem forall_mem_partsOfItems {items : List Value} :
    (∀ part ∈ partsOfItems items, p part) ↔ ∀ v ∈ items, v.All p := by
  induction items with
  | nil => exact ⟨fun _ => nofun, fun _ => nofun⟩
  | cons v vs ih => rw [partsOfItems, List.forall_mem_append, ih, List.forall_mem_cons, All]

private theorem forall_mem_partsOfEntries {d : Document} :
    (∀ part ∈ partsOfEntries d, p part) ↔ ∀ e ∈ d, e.2.All p := by
  induction d with
  | nil => exact ⟨fun _ => nofun, fun _ => nofun⟩
  | cons e d ih => rw [partsOfEntries, List.forall_mem_append, ih, List.forall_mem_cons, All]

theorem all_atom {a : Atom} : All p (.atom a) ↔ p (.atom a) := by
  rw [All, parts, List.forall_mem_singleton]

theorem all_array {items : List Value} :
    All p (.array items) ↔ p (.array items) ∧ ∀ v ∈ items, v.All p := by
  rw [All, parts, List.forall_mem_cons, forall_mem_partsOfItems]

theorem all_document {d : Document} :
    All p (.document d) ↔ p (.document d) ∧ ∀ e ∈ d, e.2.All p := by
  rw [All, parts, List.forall_mem_cons, forall_mem_partsOfEntries]

end All

/-! ### Writes -/

/-- A property that the empty document has, and that documents keep when something is put under a
key. -/
structure KeptByPut (p : Value → Prop) : Prop where
  empty : p (.document [])
  put : ∀ (d : Document) (key : String) (v : Value), p (.document d) → p (.document (d.put key v))

namespace All

variable {p : Value → Prop} (hp : KeptByPut p) {d : Document} {v : Value}

include hp

private theorem put (hd : All p (.document d)) (key : String) (hv : v.All p) :
    All p (.document (d.put key v)) := by
  obtain ⟨hself, hentries⟩ := all_document.mp hd
  exact all_document.mpr ⟨hp.put d key v hself, Document.forall_put hentries key hv⟩

/-- The document under a key is a part, unless it is the empty one. -/
private theorem child (hd : All p (.document d)) (key : String) :
    All p (.document (d.child key)) := by
  have hempty : All p (.document []) := all_document.mpr ⟨hp.empty, fun _ => nofun⟩
  unfold Document.child
  rcases hvalue : d.value? key with _ | (_ | _ | inner)
  · exact hempty
  · exact hempty
  · exact hempty
  · exact (all_document.mp hd).2 _ (Document.mem_of_value? hvalue)

private theorem writeAt (hd : All p (.document d)) (keys : List String) (hv : v.All p) :
    All p (.document (Document.writeAt keys d v)) := by
  induction keys generalizing d with
  | nil => exact hd
  | cons key keys ih =>
    rcases keys with _ | ⟨next, keys⟩
    · exact hd.put hp key hv
    · exact hd.put hp key (ih (hd.child hp key))

/-- **Writing at several paths** keeps what holds of all parts of the document and of the values
that are written. -/
theorem writeEach (hd : All p (.document d)) {fields : Document}
    (hfields : ∀ e ∈ fields, e.2.All p) : All p (.document (d.writeEach fields)) := by
  induction fields generalizing d with
  | nil => exact hd
  | cons e fields ih =>
    obtain ⟨he, hrest⟩ := List.forall_mem_cons.mp hfields
    exact ih (hd.writeAt hp (Path.segments e.1) he) hrest

end All

/-! ### Values that are the same as themselves -/

/-- Whether the value is a double that is no number. -/
def isNaN : Value → Bool
  | .double x => x.isNaN
  | _ => false

/-- Whether the value is a double. -/
def isDouble : Value → Bool
  | .double _ => true
  | _ => false

/-- Whether the value is not a document with a key that stands twice. -/
def hasDistinctKeys : Value → Bool
  | .document d => decide (Document.keys d).Nodup
  | _ => true

/-- There is no NaN in the value, and no document with a key that stands twice; documents that are
built key by key have none. -/
def IsRegular (v : Value) : Prop :=
  v.All fun part => part.isNaN = false ∧ part.hasDistinctKeys = true

instance (v : Value) : Decidable v.IsRegular :=
  inferInstanceAs (Decidable (∀ part ∈ v.parts, part.isNaN = false ∧ part.hasDistinctKeys = true))

theorem keptByPut_isRegular :
    KeptByPut fun part => part.isNaN = false ∧ part.hasDistinctKeys = true where
  empty := ⟨rfl, rfl⟩
  put _ _ _ hd := ⟨rfl, decide_eq_true (Document.nodup_keys_put (of_decide_eq_true hd.2))⟩

end Value

/-- Every double but a NaN is equal to itself. -/
theorem Double.numEq_self (x : Double) : x.numEq x = !x.isNaN := by
  rcases hkey : x.key? with _ | k
  · simp [numEq, compare?, hkey, key?_eq_none_iff.mp hkey]
  · have hnan : x.isNaN = false := by
      rw [← Bool.not_eq_true, ← key?_eq_none_iff, hkey]
      exact Option.some_ne_none k
    simp [numEq, compare?, hkey, hnan]

/-- Every atom but a NaN is the same as itself. -/
theorem Atom.same_self {a : Atom} (h : Value.isNaN (.atom a) = false) : a.same a = true := by
  cases a with
  | double x =>
    rw [same, Double.numEq_self, Bool.not_eq_true']
    exact h
  | _ => exact beq_self_eq_true _

/-- An entry of a document that has no key twice is found under its key. -/
private theorem Document.value?_of_mem {d : Document} (hd : d.keys.Nodup) {key : String} {v : Value}
    (h : (key, v) ∈ d) : d.value? key = some v := by
  obtain ⟨before, behind, rfl⟩ := List.append_of_mem h
  rw [keys, List.map_append, List.nodup_append] at hd
  refine value?_append_cons (fun hmem => ?_) v behind
  exact hd.2.2 key hmem key List.mem_cons_self rfl

namespace Value

theorem sameItems_self {items : List Value} (h : ∀ v ∈ items, v.same v = true) :
    sameItems items items = true := by
  induction items with
  | nil => rfl
  | cons v vs ih =>
    obtain ⟨hv, hvs⟩ := List.forall_mem_cons.mp h
    rw [sameItems, hv, ih hvs, Bool.and_true]

/-- **Equality of storage is reflexive** on values in which there is no NaN, and no document with a
key that stands twice. -/
theorem same_self {v : Value} (h : v.IsRegular) : v.same v = true := by
  induction v using Value.induction with
  | atom a =>
    rw [same]
    exact Atom.same_self (all_atom.mp h).1
  | array items ih =>
    rw [same]
    exact sameItems_self fun v hv => ih v hv ((all_array.mp h).2 v hv)
  | document d ih =>
    obtain ⟨⟨-, hdistinct⟩, hentries⟩ := all_document.mp h
    have hnodup : (Document.keys d).Nodup := of_decide_eq_true hdistinct
    exact Document.same_of_forall rfl fun e he =>
      ⟨e.2, Document.value?_of_mem hnodup he, ih e he (hentries e he)⟩

end Value

end DocQuery
