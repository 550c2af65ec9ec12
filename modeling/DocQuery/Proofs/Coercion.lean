import DocQuery.Operand

/-!
# Operands and their values

An operand has a value (`Operand.encode`) exactly when nothing in it, at any depth, is the default
marker or a value of some other backend, and its value decodes to the operand again, up to the two
places where an operand can be written in two ways: a null that is bound, and a case of an
enumeration, which is its text. `Operand.normal` writes both in the way that decoding does.

`Operand.encode_decodes_back` puts this together. Values built ahead of time are left out there,
since such a value is stored as it is, whatever it decodes to; and dictionaries are maps, so that
each of them is in the order of its keys.
-/

namespace DocQuery

namespace Operand

/-! ### Parts -/

mutual

/-- The operands in an operand at any depth, itself among them. -/
def parts : Operand → List Operand
  | .array items => .array items :: partsOfItems items
  | .dictionary entries => .dictionary entries :: partsOfEntries entries
  | q => [q]

/-- The operands in several operands. -/
def partsOfItems : List Operand → List Operand
  | [] => []
  | q :: qs => parts q ++ partsOfItems qs

/-- The operands in the entries of a dictionary. -/
def partsOfEntries : List (String × Operand) → List Operand
  | [] => []
  | (_, q) :: es => parts q ++ partsOfEntries es

end

/-- Every operand in it has a value: it holds no default marker and nothing for some other
backend. -/
def IsCoercible (q : Operand) : Prop :=
  ∀ part ∈ q.parts, part ≠ .default ∧ ∀ text, part ≠ .otherBackend text

/-- It holds no value that was built ahead of time. -/
def IsUnbuilt (q : Operand) : Prop := ∀ part ∈ q.parts, ∀ v, part ≠ .primitive v

/-- Its dictionaries are maps, in the order of their keys. -/
def IsSorted (q : Operand) : Prop :=
  ∀ part ∈ q.parts, ∀ entries, part = .dictionary entries → SortedMap.Ascending entries

section Parts

variable {p : Operand → Prop}

private theorem forall_mem_partsOfItems {items : List Operand} :
    (∀ part ∈ partsOfItems items, p part) ↔ ∀ q ∈ items, ∀ part ∈ q.parts, p part := by
  induction items with
  | nil => exact ⟨fun _ => nofun, fun _ => nofun⟩
  | cons q qs ih => rw [partsOfItems, List.forall_mem_append, ih, List.forall_mem_cons]

private theorem forall_mem_partsOfEntries {entries : List (String × Operand)} :
    (∀ part ∈ partsOfEntries entries, p part) ↔ ∀ e ∈ entries, ∀ part ∈ e.2.parts, p part := by
  induction entries with
  | nil => exact ⟨fun _ => nofun, fun _ => nofun⟩
  | cons e es ih => rw [partsOfEntries, List.forall_mem_append, ih, List.forall_mem_cons]

/-- What holds of all parts of an array holds of the array and of all parts of its items. -/
theorem forall_mem_parts_array {items : List Operand} :
    (∀ part ∈ parts (.array items), p part) ↔
      p (.array items) ∧ ∀ q ∈ items, ∀ part ∈ q.parts, p part := by
  rw [parts, List.forall_mem_cons, forall_mem_partsOfItems]

/-- What holds of all parts of a dictionary holds of the dictionary and of all parts of its
entries. -/
theorem forall_mem_parts_dictionary {entries : List (String × Operand)} :
    (∀ part ∈ parts (.dictionary entries), p part) ↔
      p (.dictionary entries) ∧ ∀ e ∈ entries, ∀ part ∈ e.2.parts, p part := by
  rw [parts, List.forall_mem_cons, forall_mem_partsOfEntries]

end Parts

/-! ### Operands that have a value -/

/-- The entries of a dictionary have values when each of them has. -/
theorem exists_encodeEntries_eq_ok_iff {entries : List (String × Operand)} :
    (∃ d, encodeEntries entries = .ok d) ↔ ∀ e ∈ entries, ∃ v, e.2.encode = .ok v := by
  induction entries with
  | nil => exact ⟨fun _ => nofun, fun _ => ⟨[], rfl⟩⟩
  | cons e es ih =>
    rw [encodeEntries, exists_bind_eq_ok_iff fun v _ => exists_bind_pure_eq_ok_iff, ih,
      List.forall_mem_cons]

/-- An operand has a value unless a part of it has none. -/
theorem exists_encode_eq_ok_iff (q : Operand) : (∃ v, q.encode = .ok v) ↔ q.IsCoercible := by
  induction q using Operand.induction with
  | array items ih =>
    rw [encode, exists_bind_pure_eq_ok_iff, encodeItems_eq_mapM, exists_mapM_eq_ok_iff,
      IsCoercible, forall_mem_parts_array, and_iff_right ⟨nofun, nofun⟩]
    exact forall₂_congr ih
  | dictionary entries ih =>
    rw [encode, exists_bind_pure_eq_ok_iff, exists_encodeEntries_eq_ok_iff, IsCoercible,
      forall_mem_parts_dictionary, and_iff_right ⟨nofun, nofun⟩]
    exact forall₂_congr ih
  | bind s => simp [IsCoercible, parts, encode]
  | null => simp [IsCoercible, parts, encode]
  | enumCase name => simp [IsCoercible, parts, encode]
  | default => simp [IsCoercible, parts, encode]
  | primitive v => simp [IsCoercible, parts, encode]
  | otherBackend text => simp [IsCoercible, parts, encode]

/-! ### Decoding what was encoded -/

mutual

/-- The way of writing an operand that decoding chooses: a null that is bound is null, and a case of
an enumeration is a text. -/
def normal : Operand → Operand
  | .bind .null => .null
  | .enumCase name => .bind (.string name)
  | .array items => .array (normalItems items)
  | .dictionary entries => .dictionary (normalEntries entries)
  | q => q

/-- Several operands in the way of writing that decoding chooses. -/
def normalItems : List Operand → List Operand
  | [] => []
  | q :: qs => normal q :: normalItems qs

/-- The entries of a dictionary in the way of writing that decoding chooses. -/
def normalEntries : List (String × Operand) → List (String × Operand)
  | [] => []
  | (k, q) :: es => (k, normal q) :: normalEntries es

end

private theorem normalItems_eq_map (items : List Operand) :
    normalItems items = items.map normal := by
  induction items with
  | nil => rfl
  | cons q qs ih => rw [normalItems, ih, List.map_cons]

private theorem normalEntries_eq_map (entries : List (String × Operand)) :
    normalEntries entries = entries.map fun e => (e.1, e.2.normal) := by
  induction entries with
  | nil => rfl
  | cons e es ih => rw [normalEntries, ih, List.map_cons]

private theorem normal_bind {s : Scalar} (hs : s ≠ .null) : normal (.bind s) = .bind s := by
  cases s with
  | null => exact absurd rfl hs
  | _ => rfl

/-- Only bound nulls and cases of enumerations are written in another way. -/
theorem normal_eq_self {q : Operand}
    (h : ∀ part ∈ q.parts, part ≠ .bind .null ∧ ∀ name, part ≠ .enumCase name) :
    q.normal = q := by
  induction q using Operand.induction with
  | array items ih =>
    have hitems := (forall_mem_parts_array.mp h).2
    rw [normal, normalItems_eq_map, List.map_congr_left fun q hq => ih q hq (hitems q hq),
      List.map_id']
  | dictionary entries ih =>
    have hentries := (forall_mem_parts_dictionary.mp h).2
    rw [normal, normalEntries_eq_map,
      List.map_congr_left fun e he => congrArg (e.1, ·) (ih e he (hentries e he)), List.map_id']
  | bind s =>
    refine normal_bind ?_
    rintro rfl
    exact (h _ (List.mem_singleton.mpr rfl)).1 rfl
  | enumCase name => exact absurd rfl ((h _ (List.mem_singleton.mpr rfl)).2 name)
  | null => rfl
  | default => rfl
  | primitive v => rfl
  | otherBackend text => rfl

/-- What a scalar is encoded to decodes to the scalar, and to null from a null. -/
private theorem decode?_bind (s : Scalar) : decode? (.atom s.encode) = some (normal (.bind s)) := by
  by_cases hs : s = .null
  · subst hs
    rfl
  · -- Of all scalars only a null is stored as a null, which decoding takes for an operand that is
    -- not bound.
    have hencode : s.encode ≠ .null := by
      cases s <;> first | exact absurd rfl hs | nofun
    rw [decode?, Scalar.decode?_encode, normal_bind hs]
    · rfl
    · exact hencode

/-- The values of items decode to the items in their normal way of writing, when each of them
does. -/
private theorem decodeItems?_of_encodeItems {items : List Operand} {vs : List Value}
    (hvs : encodeItems items = .ok vs)
    (h : ∀ q ∈ items, ∀ v, q.encode = .ok v → decode? v = some q.normal) :
    decodeItems? vs = some (items.map normal) := by
  induction items generalizing vs with
  | nil =>
    obtain rfl := Except.ok.inj hvs
    rfl
  | cons q qs ih =>
    obtain ⟨v, hv, hvs⟩ := bind_eq_ok_iff.mp hvs
    obtain ⟨rest, hrest, hvs⟩ := bind_eq_ok_iff.mp hvs
    obtain rfl := Except.ok.inj hvs
    obtain ⟨hq, hqs⟩ := List.forall_mem_cons.mp h
    rw [decodeItems?, hq v hv, ih hrest hqs, List.map_cons]

/-- The values of entries decode to the entries in their normal way of writing, when each of them
does. -/
private theorem decodeEntries?_of_encodeEntries {entries : List (String × Operand)} {d : Document}
    (hd : encodeEntries entries = .ok d)
    (h : ∀ e ∈ entries, ∀ v, e.2.encode = .ok v → decode? v = some e.2.normal) :
    decodeEntries? d = some (entries.map fun e => (e.1, e.2.normal)) := by
  induction entries generalizing d with
  | nil =>
    obtain rfl := Except.ok.inj hd
    rfl
  | cons e es ih =>
    obtain ⟨v, hv, hd⟩ := bind_eq_ok_iff.mp hd
    obtain ⟨rest, hrest, hd⟩ := bind_eq_ok_iff.mp hd
    obtain rfl := Except.ok.inj hd
    obtain ⟨he, hes⟩ := List.forall_mem_cons.mp h
    rw [decodeEntries?, he v hv, ih hrest hes, List.map_cons]

/-- The value of an operand decodes to the operand in its normal way of writing. -/
private theorem decode?_of_encode {q : Operand} {v : Value} (hv : q.encode = .ok v)
    (hbuilt : q.IsUnbuilt) (hsorted : q.IsSorted) : decode? v = some q.normal := by
  induction q using Operand.induction generalizing v with
  | array items ih =>
    obtain ⟨vs, hvs, hv⟩ := bind_eq_ok_iff.mp hv
    obtain rfl := Except.ok.inj hv
    have hitems : decodeItems? vs = some (items.map normal) :=
      decodeItems?_of_encodeItems hvs fun q hq w hw => ih q hq hw
        ((forall_mem_parts_array.mp hbuilt).2 q hq) ((forall_mem_parts_array.mp hsorted).2 q hq)
    rw [decode?, hitems, normal, normalItems_eq_map]
    rfl
  | dictionary entries ih =>
    obtain ⟨d, hd, hv⟩ := bind_eq_ok_iff.mp hv
    obtain rfl := Except.ok.inj hv
    have hentries : decodeEntries? d = some (entries.map fun e => (e.1, e.2.normal)) :=
      decodeEntries?_of_encodeEntries hd fun e he w hw => ih e he hw
        ((forall_mem_parts_dictionary.mp hbuilt).2 e he)
        ((forall_mem_parts_dictionary.mp hsorted).2 e he)
    -- Decoding builds a map from the entries again; their keys are those of the dictionary, so it
    -- leaves them in their order.
    have hascending : SortedMap.Ascending (entries.map fun e => (e.1, e.2.normal)) :=
      ((forall_mem_parts_dictionary.mp hsorted).1 entries rfl).map _ fun _ _ hlt => hlt
    rw [decode?, hentries, Option.map_some, dictionaryOf, SortedMap.ofList_of_ascending hascending,
      normal, normalEntries_eq_map]
  | bind s =>
    obtain rfl := Except.ok.inj hv
    exact decode?_bind s
  | null =>
    obtain rfl := Except.ok.inj hv
    rfl
  | enumCase name =>
    obtain rfl := Except.ok.inj hv
    rfl
  | default => cases hv
  | primitive built => exact absurd rfl (hbuilt _ (List.mem_singleton.mpr rfl) built)
  | otherBackend text => cases hv

/-- **Coercion can be undone.** An operand has a value exactly when no part of it is the default
marker or meant for some other backend. The value of an operand without values built ahead of time
decodes to the operand, with bound nulls and cases of enumerations written in the normal way; where
there are none of them, to the very same operand. -/
theorem encode_decodes_back (q : Operand) :
    ((∃ v, q.encode = .ok v) ↔ q.IsCoercible) ∧
      (q.IsCoercible → q.IsUnbuilt → q.IsSorted →
        ∃ v, q.encode = .ok v ∧ decode? v = some q.normal) ∧
      ((∀ part ∈ q.parts, part ≠ .bind .null ∧ ∀ name, part ≠ .enumCase name) →
        q.normal = q) := by
  refine ⟨exists_encode_eq_ok_iff q, fun hcoercible hbuilt hsorted => ?_, normal_eq_self⟩
  obtain ⟨v, hv⟩ := (exists_encode_eq_ok_iff q).mpr hcoercible
  exact ⟨v, hv, decode?_of_encode hv hbuilt hsorted⟩

/-- A dictionary with a missing town, a rank that is a case of an enumeration, and a list. -/
def visit : Operand :=
  dictionaryOf [("town", .bind .null), ("rank", .enumCase "first"),
    ("days", .array [.bind (.int32 1), .bind (.int64 1), .null])]

/-- The dictionary is stored in the order of its keys, and comes back with its null unbound and its
rank as a text. -/
theorem encode_decodes_back_visit :
    visit.IsCoercible ∧ visit.IsUnbuilt ∧ visit.IsSorted ∧
      visit.normal = .dictionary [("days", .array [.bind (.int32 1), .bind (.int64 1), .null]),
        ("rank", .bind (.string "first")), ("town", .null)] ∧
      ∃ v, visit.encode = .ok v ∧ decode? v = some visit.normal := by
  have hparts : visit.parts = [visit, .array [.bind (.int32 1), .bind (.int64 1), .null],
      .bind (.int32 1), .bind (.int64 1), .null, .enumCase "first", .bind .null] := rfl
  have hcoercible : visit.IsCoercible := by
    rw [IsCoercible, hparts]
    simp [visit, dictionaryOf]
  have hbuilt : visit.IsUnbuilt := by
    rw [IsUnbuilt, hparts]
    simp [visit, dictionaryOf]
  have hsorted : visit.IsSorted := by
    rw [IsSorted, hparts]
    simp [visit, dictionaryOf, SortedMap.ascending_ofList]
  exact ⟨hcoercible, hbuilt, hsorted, rfl,
    (encode_decodes_back visit).2.1 hcoercible hbuilt hsorted⟩

end Operand

end DocQuery
