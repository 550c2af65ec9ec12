import DocQuery.Operand
import DocQuery.Proofs.ByteOrder
import DocQuery.Proofs.Coercion
import DocQuery.Proofs.ValueParts

/-!
# Values and their operands

The way from a value to an operand and back. An operand stands for a value (`Operand.decode?`)
exactly when each of its atoms, at any depth, is of a kind that can be bound: there is none for
regular expressions, timestamps, symbols, code and the markers, nor for a binary value that is
marked as an identifier and is not as long as one. Such an operand always has a value, which is the
one that was decoded but for two things: documents have become maps, with their keys in the order of
their bytes, and binary values other than identifiers have lost their subtype. `Value.normal` makes
these changes and no others.

`Operand.decode_encodes_back` puts this together.
-/

namespace DocQuery

/-! ### Atoms -/

namespace Atom

/-- Whether a scalar stands for the atom. A binary value marked as an identifier has to be as long
as one. -/
def isBindable : Atom → Bool
  | .null | .bool _ | .int32 _ | .int64 _ | .double _ => true
  | .string _ | .dateTime _ | .objectId _ => true
  | .binary subtype b => subtype != Scalar.uuidSubtype || b.length == 16
  | .regex _ _ | .timestamp _ _ | .symbol _ | .javascript _ => false
  | .undefined | .minKey | .maxKey => false

/-- The atom without the subtype of a binary value that is not an identifier. -/
def normal : Atom → Atom
  | .binary subtype b =>
    .binary (if subtype = Scalar.uuidSubtype then subtype else Scalar.genericSubtype) b
  | a => a

end Atom

namespace Uuid

theorem exists_ofBytes?_iff {b : List UInt8} : (∃ u, ofBytes? b = some u) ↔ b.length = 16 := by
  unfold ofBytes?
  split <;> simp_all

private theorem bytes_of_ofBytes? {b : List UInt8} {u : Uuid} (h : ofBytes? b = some u) :
    u.bytes = b := by
  unfold ofBytes? at h
  split at h
  · rw [← Option.some.inj h]
  · cases h

end Uuid

namespace Scalar

theorem exists_decode?_iff (a : Atom) : (∃ s, decode? a = some s) ↔ a.isBindable = true := by
  cases a with
  | binary subtype b =>
    by_cases huuid : subtype = uuidSubtype
    · simp [decode?, Atom.isBindable, huuid, ← Uuid.exists_ofBytes?_iff]
    · simp [decode?, Atom.isBindable, huuid]
  | _ => simp [decode?, Atom.isBindable]

/-- The scalar that stands for an atom is stored as the atom, but for the subtype. -/
private theorem encode_of_decode? {a : Atom} {s : Scalar} (h : decode? a = some s) :
    s.encode = a.normal := by
  cases a with
  | binary subtype b =>
    by_cases huuid : subtype = uuidSubtype
    · rw [decode?, if_pos huuid] at h
      obtain ⟨u, hu, rfl⟩ := Option.map_eq_some_iff.mp h
      rw [encode, Uuid.bytes_of_ofBytes? hu, Atom.normal, if_pos huuid, huuid]
    · rw [decode?, if_neg huuid] at h
      rw [← Option.some.inj h, encode, Atom.normal, if_neg huuid]
  | _ =>
    cases h <;> rfl

end Scalar

/-! ### Values -/

namespace Value

/-- Whether the value is not an atom for which there is no scalar. -/
def isBindable : Value → Bool
  | .atom a => a.isBindable
  | .array _ | .document _ => true

mutual

/-- The value with the entries of each document sorted by the bytes of their keys, and without the
subtypes of binary values that are not identifiers. -/
def normal : Value → Value
  | .atom a => .atom a.normal
  | .array items => .array (normalItems items)
  | .document d => .document ((normalEntries d).insertionSort SortedMap.KeyLE)

/-- Several values in normal form. -/
def normalItems : List Value → List Value
  | [] => []
  | v :: vs => normal v :: normalItems vs

/-- Entries with their values in normal form, in the order they stand in. -/
def normalEntries : Document → Document
  | [] => []
  | (k, v) :: d => (k, normal v) :: normalEntries d

end

private theorem keys_normalEntries (d : Document) : (normalEntries d).map Prod.fst = d.keys := by
  induction d with
  | nil => rfl
  | cons e d ih =>
    rw [normalEntries, List.map_cons, ih, Document.keys, Document.keys, List.map_cons]

end Value

/-! ### Decoding -/

namespace Operand

/-- Of all atoms only null has an operand that is not bound. -/
private theorem decode?_atom {a : Atom} (ha : a ≠ .null) :
    decode? (.atom a) = (Scalar.decode? a).map .bind := by
  rw [decode?]
  exact ha

theorem exists_decodeItems?_iff {items : List Value} :
    (∃ qs, decodeItems? items = some qs) ↔ ∀ v ∈ items, ∃ q, decode? v = some q := by
  induction items with
  | nil => exact ⟨fun _ => nofun, fun _ => ⟨[], rfl⟩⟩
  | cons v vs ih =>
    rw [List.forall_mem_cons, ← ih, decodeItems?]
    cases decode? v <;> cases decodeItems? vs <;> simp

theorem exists_decodeEntries?_iff {d : Document} :
    (∃ es, decodeEntries? d = some es) ↔ ∀ e ∈ d, ∃ q, decode? e.2 = some q := by
  induction d with
  | nil => exact ⟨fun _ => nofun, fun _ => ⟨[], rfl⟩⟩
  | cons e d ih =>
    rw [List.forall_mem_cons, ← ih, decodeEntries?]
    cases decode? e.2 <;> cases decodeEntries? d <;> simp

/-- A value has an operand when all of its atoms can be bound. -/
theorem exists_decode?_iff (v : Value) :
    (∃ q, decode? v = some q) ↔ v.All fun part => part.isBindable = true := by
  induction v using Value.induction with
  | atom a =>
    rw [Value.all_atom, Value.isBindable, ← Scalar.exists_decode?_iff]
    by_cases ha : a = .null
    · subst ha
      exact ⟨fun _ => ⟨_, rfl⟩, fun _ => ⟨_, rfl⟩⟩
    · rw [decode?_atom ha, ← Option.isSome_iff_exists, Option.isSome_map, Option.isSome_iff_exists]
  | array items ih =>
    rw [Value.all_array, Value.isBindable, and_iff_right rfl, decode?, ← Option.isSome_iff_exists,
      Option.isSome_map, Option.isSome_iff_exists, exists_decodeItems?_iff]
    exact forall₂_congr ih
  | document d ih =>
    rw [Value.all_document, Value.isBindable, and_iff_right rfl, decode?,
      ← Option.isSome_iff_exists, Option.isSome_map, Option.isSome_iff_exists,
      exists_decodeEntries?_iff]
    exact forall₂_congr ih

/-- Entries have the values of their operands, under the same keys. -/
private theorem encodeEntries_of_forall₂ {entries : List (String × Operand)} {d : Document}
    (h : List.Forall₂ (SortedMap.Under fun q v => encode q = .ok v) entries d) :
    encodeEntries entries = .ok d := by
  induction h with
  | nil => rfl
  | @cons e f es d hef h ih =>
    obtain ⟨k, q⟩ := e
    obtain ⟨l, v⟩ := f
    obtain ⟨rfl, hv⟩ := hef
    rw [encodeEntries, hv, ih]
    rfl

private theorem encodeItems_of_decodeItems? {items : List Value} {qs : List Operand}
    (hqs : decodeItems? items = some qs)
    (h : ∀ v ∈ items, ∀ q, decode? v = some q → q.encode = .ok v.normal) :
    encodeItems qs = .ok (Value.normalItems items) := by
  induction items generalizing qs with
  | nil =>
    obtain rfl := Option.some.inj hqs
    rfl
  | cons v vs ih =>
    obtain ⟨hv, hvs⟩ := List.forall_mem_cons.mp h
    rw [decodeItems?] at hqs
    split at hqs
    · next q rest hq hrest =>
      obtain rfl := Option.some.inj hqs
      rw [encodeItems, hv q hq, ih hrest hvs]
      rfl
    · cases hqs

private theorem forall₂_of_decodeEntries? {d : Document} {entries : List (String × Operand)}
    (hentries : decodeEntries? d = some entries)
    (h : ∀ e ∈ d, ∀ q, decode? e.2 = some q → q.encode = .ok e.2.normal) :
    List.Forall₂ (SortedMap.Under fun q v => encode q = .ok v) entries (Value.normalEntries d) := by
  induction d generalizing entries with
  | nil =>
    obtain rfl := Option.some.inj hentries
    exact .nil
  | cons e d ih =>
    obtain ⟨he, hd⟩ := List.forall_mem_cons.mp h
    rw [decodeEntries?] at hentries
    split at hentries
    · next q rest hq hrest =>
      obtain rfl := Option.some.inj hentries
      exact .cons ⟨rfl, he q hq⟩ (ih hrest hd)
    · cases hentries

/-- The operand of a value has the value in its normal form. -/
private theorem encode_of_decode? {v : Value} {q : Operand} (hq : decode? v = some q)
    (hkeys : v.All fun part => part.hasDistinctKeys = true) : q.encode = .ok v.normal := by
  induction v using Value.induction generalizing q with
  | atom a =>
    by_cases ha : a = .null
    · subst ha
      obtain rfl := Option.some.inj hq
      rfl
    · rw [decode?_atom ha] at hq
      obtain ⟨s, hs, rfl⟩ := Option.map_eq_some_iff.mp hq
      rw [encode, Scalar.encode_of_decode? hs, Value.normal]
  | array items ih =>
    obtain ⟨qs, hqs, rfl⟩ := Option.map_eq_some_iff.mp hq
    have hitems : encodeItems qs = .ok (Value.normalItems items) :=
      encodeItems_of_decodeItems? hqs fun v hv _ h => ih v hv h ((Value.all_array.mp hkeys).2 v hv)
    rw [encode, hitems, Value.normal]
    rfl
  | document d ih =>
    obtain ⟨entries, hentries, rfl⟩ := Option.map_eq_some_iff.mp hq
    obtain ⟨hdistinct, hparts⟩ := Value.all_document.mp hkeys
    have hvalues := forall₂_of_decodeEntries? hentries fun e he _ h => ih e he h (hparts e he)
    -- The entries become a map before they are stored, and so would their values.
    have hmap := encodeEntries_of_forall₂ (SortedMap.ofList_under hvalues)
    have hnodup : ((Value.normalEntries d).map Prod.fst).Nodup := by
      rw [Value.keys_normalEntries]
      exact of_decide_eq_true hdistinct
    rw [dictionaryOf, encode, hmap, SortedMap.ofList_eq_insertionSort hnodup, Value.normal]
    rfl

/-- **Decoding can be undone.** A value has an operand exactly when there is a scalar for each of
its atoms, at any depth. The operand of a value whose documents have no key twice always has a
value, the one that was decoded in its normal form. -/
theorem decode_encodes_back (v : Value) :
    ((∃ q, decode? v = some q) ↔ v.All fun part => part.isBindable = true) ∧
      ((v.All fun part => part.hasDistinctKeys = true) →
        ∀ q, decode? v = some q → q.encode = .ok v.normal) :=
  ⟨exists_decode?_iff v, fun hkeys _ hq => encode_of_decode? hq hkeys⟩

/-- A document with a mark of a subtype of its own, in a list, and keys in no order. -/
def parcel : Value :=
  .document [("zürich", .bool true), ("zoo", .array [.atom (.binary 5 [1, 2]), .null]),
    ("box", .document [("size", .int32 2), ("Lid", .atom (.binary 4 (List.replicate 16 7)))])]

/-- The parcel comes back with its keys in order, capitals before small letters and these before
letters of more than one byte, and with its mark a plain one. -/
theorem decode_encodes_back_parcel :
    (parcel.All fun part => part.hasDistinctKeys = true) ∧
      parcel.normal = .document [
        ("box", .document [("Lid", .atom (.binary 4 (List.replicate 16 7))), ("size", .int32 2)]),
        ("zoo", .array [.atom (.binary 0 [1, 2]), .null]), ("zürich", .bool true)] ∧
      ∃ q, decode? parcel = some q ∧ q.encode = .ok parcel.normal := by
  have hkeys : parcel.All fun part => part.hasDistinctKeys = true := by
    unfold Value.All
    decide
  have hbindable : parcel.All fun part => part.isBindable = true := by
    unfold Value.All
    decide
  obtain ⟨q, hq⟩ := (decode_encodes_back parcel).1.mpr hbindable
  exact ⟨hkeys, by decide, q, hq, (decode_encodes_back parcel).2 hkeys q hq⟩

end Operand

end DocQuery
