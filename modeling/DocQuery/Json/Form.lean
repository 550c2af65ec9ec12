import DocQuery.Json

/-!
# Records and variants in JSON

Conventions for writing data types as JSON. A record is an object with a member for each field, or
an array of the fields in order; members of other names are ignored, and a repeated one is an
error. A variant without content is its name, one with content an object whose only member is the
content under the name.
-/

namespace DocQuery.Json

/-- The variant of a name with its content. -/
def variant (name : String) (content : Json) : Json := .object [(name, content)]

/-- The name of a variant, and its content if there is any. -/
def variant? : Json → Option (String × Option Json)
  | .string name => some (name, none)
  | .object [(name, content)] => some (name, some content)
  | _ => none

/-- The content of a variant that has none. -/
def bare? (content : Option Json) : Option Unit :=
  match content with
  | none => some ()
  | some .null => some ()
  | some _ => none

/-- Whether no field occurs twice among members. -/
def distinct (names : List String) (members : List (String × Json)) : Bool :=
  names.all fun name => occurrences name members ≤ 1

/-- The fields of a record by position, where they are present. -/
def fields? (names : List String) : Json → Option (List (Option Json))
  | .object members =>
    if distinct names members then some (names.map fun name => member? name members) else none
  | .array items => if items.length = names.length then some (items.map some) else none
  | _ => none

/-- A field that may be missing; it is missing when it is null. -/
def optional? {α : Type} (read? : Json → Option α) (field : Option Json) : Option (Option α) :=
  match field with
  | none => some none
  | some .null => some none
  | some j => (read? j).map some

/-- An array of items. -/
def list? {α : Type} (read? : Json → Option α) : Json → Option (List α)
  | .array items => items.mapM read?
  | _ => none

/-- What may be missing, written as null when it is. -/
def ofOption {α : Type} (write : α → Json) : Option α → Json
  | none => .null
  | some x => write x

/-- A list of items. -/
def ofList {α : Type} (write : α → Json) (xs : List α) : Json := .array (xs.map write)

/-- A list of bytes as a list of numbers. -/
def ofBytes (bytes : List UInt8) : Json := ofList (fun b => .int b.toNat) bytes

/-- A byte. -/
def byte? (j : Json) : Option UInt8 := (intBetween? 0 UInt8.size j).map fun n => UInt8.ofNat n.toNat

/-- A list of bytes. -/
def bytes? (j : Json) : Option (List UInt8) := list? byte? j

/-- A 32-bit integer. -/
def int32? (j : Json) : Option Int32 := (intBetween? (-0x80000000) 0x80000000 j).map Int32.ofInt

/-- A 64-bit integer. -/
def int64? (j : Json) : Option Int64 :=
  (intBetween? (-0x8000000000000000) 0x8000000000000000 j).map Int64.ofInt

/-- An unsigned 64-bit integer. -/
def uint64? (j : Json) : Option UInt64 :=
  (intBetween? 0 UInt64.size j).map fun n => UInt64.ofNat n.toNat

/-- A number, as the nearest double. -/
def double? : Json → Option Double
  | .int n => some (.ofInt n)
  | .float d => some d
  | _ => none

/-! ### Reading what was written -/

@[simp] theorem variant?_string (name : String) : variant? (.string name) = some (name, none) := rfl

@[simp] theorem variant?_variant (name : String) (content : Json) :
    variant? (variant name content) = some (name, some content) := rfl

@[simp] theorem bare?_none : bare? none = some () := rfl

@[simp] theorem string?_string (s : String) : string? (.string s) = some s := rfl

@[simp] theorem bool?_bool (b : Bool) : bool? (.bool b) = some b := rfl

private theorem occurrences_le_one {members : List (String × Json)} (h : (members.map (·.1)).Nodup)
    (name : String) : occurrences name members ≤ 1 := by
  have hcount : occurrences name members = (members.map (·.1)).count name := by
    rw [occurrences, List.count, List.countP_map]
    rfl
  rw [hcount]
  exact List.nodup_iff_count.mp h name

/-- A member is found under its name where no name repeats. -/
private theorem member?_of_mem {members : List (String × Json)} (h : (members.map (·.1)).Nodup)
    {m : String × Json} (hm : m ∈ members) : member? m.1 members = some m.2 := by
  induction members with
  | nil => cases hm
  | cons e rest ih =>
    obtain ⟨hfirst, hrest⟩ := List.nodup_cons.mp h
    rw [member?]
    rcases List.mem_cons.mp hm with rfl | hm
    · exact if_pos rfl
    · have hne : e.1 ≠ m.1 := fun heq => hfirst (List.mem_map.mpr ⟨m, hm, heq.symm⟩)
      rw [if_neg hne]
      exact ih hrest hm

/-- A record that was written as an object is read by position. -/
@[simp] theorem fields?_object {names : List String} {members : List (String × Json)}
    (hnames : members.map (·.1) = names) (hnodup : names.Nodup) :
    fields? names (.object members) = some (members.map fun m => some m.2) := by
  subst hnames
  have hdistinct : distinct (members.map (·.1)) members = true :=
    List.all_eq_true.mpr fun name _ => decide_eq_true (occurrences_le_one hnodup name)
  rw [fields?, if_pos hdistinct, List.map_map]
  exact congrArg some (List.map_congr_left fun m hm => member?_of_mem hnodup hm)

/-- A text that may be missing is read back. -/
@[simp] theorem optional?_ofOption_string (s : Option String) :
    optional? string? (some (ofOption .string s)) = some s := by
  cases s <;> rfl

/-- A list is read back when each of its items is. -/
theorem list?_ofList {α : Type} {write : α → Json} {read? : Json → Option α} {xs : List α}
    (h : ∀ x ∈ xs, read? (write x) = some x) : list? read? (ofList write xs) = some xs := by
  rw [ofList, list?]
  induction xs with
  | nil => rfl
  | cons x xs ih =>
    obtain ⟨hx, hxs⟩ := List.forall_mem_cons.mp h
    rw [List.map_cons, List.mapM_cons, hx, ih hxs]
    rfl

@[simp] theorem bytes?_ofBytes (bytes : List UInt8) : bytes? (ofBytes bytes) = some bytes := by
  refine list?_ofList fun b _ => ?_
  have hb : (0 : Int) ≤ b.toNat ∧ (b.toNat : Int) < UInt8.size :=
    ⟨Int.natCast_nonneg _, Int.ofNat_lt.mpr b.toNat_lt_size⟩
  rw [byte?, intBetween?, if_pos hb, Option.map_some, Int.toNat_natCast, UInt8.ofNat_toNat]

@[simp] theorem int32?_int (n : Int32) : int32? (.int n.toInt) = some n := by
  have hn : -0x80000000 ≤ n.toInt ∧ n.toInt < 0x80000000 := ⟨n.le_toInt, n.toInt_lt⟩
  rw [int32?, intBetween?, if_pos hn, Option.map_some, Int32.ofInt_toInt]

@[simp] theorem int64?_int (n : Int64) : int64? (.int n.toInt) = some n := by
  have hn : -0x8000000000000000 ≤ n.toInt ∧ n.toInt < 0x8000000000000000 :=
    ⟨n.le_toInt, n.toInt_lt⟩
  rw [int64?, intBetween?, if_pos hn, Option.map_some, Int64.ofInt_toInt]

@[simp] theorem uint64?_int (n : UInt64) : uint64? (.int n.toNat) = some n := by
  have hn : (0 : Int) ≤ n.toNat ∧ (n.toNat : Int) < UInt64.size :=
    ⟨Int.natCast_nonneg _, Int.ofNat_lt.mpr n.toNat_lt_size⟩
  rw [uint64?, intBetween?, if_pos hn, Option.map_some, Int.toNat_natCast, UInt64.ofNat_toNat]

end DocQuery.Json
