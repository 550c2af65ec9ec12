import Mathlib.Data.List.Flatten
import Mathlib.Data.List.Forall2
import Mathlib.Data.List.Induction
import Mathlib.Data.List.Sort
import Mathlib.Data.String.Basic
import DocQuery.SortedMap

/-!
# The order of bytes

Text is ordered by its characters, and this is the order of its bytes in UTF-8
(`Text.bytes_lt_bytes_iff`): a character with a greater code is encoded by bytes that come later,
whatever follows. A map sorted by key is thus sorted by the bytes of its keys, and a list of
entries in which no key stands twice becomes, as a map, the list sorted in this way
(`SortedMap.ofList_eq_insertionSort`).
-/

namespace DocQuery

namespace Text

/-- The bytes of a text in UTF-8. -/
def bytes (s : String) : List UInt8 := s.toUTF8.data.toList

private theorem bytes_eq_flatMap (s : String) :
    bytes s = s.toList.flatMap String.utf8EncodeChar := by
  rw [bytes, String.toUTF8_eq_toByteArray, ← String.utf8Encode_toList, List.utf8Encode,
    List.toList_data_toByteArray]

/-- The bytes of a greater character come later in the order, whatever follows. -/
private theorem utf8EncodeChar_append_lt {c d : Char} (h : c < d) (r r' : List UInt8) :
    String.utf8EncodeChar c ++ r < String.utf8EncodeChar d ++ r' := by
  have hlt : c.val.toNat < d.val.toNat := h
  have hd : d.val.toNat < 0x110000 := by
    have hvalid := d.valid
    simp only [UInt32.isValidChar, Nat.isValidChar] at hvalid
    omega
  -- The digits of a code are its remainders by 64, one byte each; the marks that are added to them
  -- do not carry.
  have hlead (n : Nat) : (n % 8 + 240) % 256 = n % 8 + 240 := by omega
  have hdigit (n : Nat) : (n % 64 + 128) % 256 = n % 64 + 128 := by omega
  have htwo (n : Nat) : n / 4096 = n / 64 / 64 := by omega
  have hthree (n : Nat) : n / 262144 = n / 64 / 64 / 64 := by omega
  unfold String.utf8EncodeChar
  dsimp only
  -- A case for each pair of lengths: the smaller character is not encoded by more bytes.
  repeat' split
  all_goals try omega
  all_goals
    simp only [List.cons_append, List.nil_append, List.cons_lt_cons_iff, UInt8.lt_iff_toNat_lt,
      UInt8.toNat_ofNat', ← UInt8.toNat_inj, Nat.reducePow, hlead, hdigit, htwo, hthree]
    omega

private theorem flatMap_utf8EncodeChar_lt {cs ds : List Char} (h : cs < ds) :
    cs.flatMap String.utf8EncodeChar < ds.flatMap String.utf8EncodeChar := by
  induction h with
  | @nil d ds =>
    obtain ⟨b, bs, hencode⟩ : ∃ b bs, String.utf8EncodeChar d = b :: bs :=
      List.exists_cons_of_ne_nil String.utf8EncodeChar_ne_nil
    rw [List.flatMap_nil, List.flatMap_cons, hencode, List.cons_append]
    exact List.nil_lt_cons b _
  | cons h ih =>
    rw [List.flatMap_cons, List.flatMap_cons]
    exact List.append_left_lt ih
  | rel h =>
    rw [List.flatMap_cons, List.flatMap_cons]
    exact utf8EncodeChar_append_lt h _ _

/-- **The order of texts is the order of their bytes.** -/
theorem bytes_lt_bytes_iff {s t : String} : bytes s < bytes t ↔ s < t := by
  have hmono {s t : String} (h : s < t) : bytes s < bytes t := by
    rw [bytes_eq_flatMap, bytes_eq_flatMap]
    exact flatMap_utf8EncodeChar_lt (String.lt_iff_toList_lt.mp h)
  refine ⟨fun h => ?_, hmono⟩
  rcases lt_trichotomy s t with hlt | rfl | hgt
  · exact hlt
  · exact absurd h (List.lt_irrefl _)
  · exact absurd (hmono hgt) (List.lt_asymm h)

theorem bytes_le_bytes_iff {s t : String} : bytes s ≤ bytes t ↔ s ≤ t := by
  rw [← List.not_lt, bytes_lt_bytes_iff, String.not_lt]

end Text

namespace SortedMap

variable {α : Type}

/-- Writing under a new key adds an entry. -/
private theorem insert_perm {key : String} (v : α) {m : List (String × α)}
    (h : ∀ e ∈ m, e.1 ≠ key) :
    (insert key v m).Perm ((key, v) :: m) := by
  fun_induction insert key v m with
  | case1 => exact .refl _
  | case2 => exact .refl _
  | case3 => exact absurd rfl (h _ List.mem_cons_self)
  | case4 k w m hnot hne ih =>
    exact ((ih fun e he => h e (List.mem_cons_of_mem _ he)).cons _).trans (.swap _ _ _)

/-- A map holds the entries it is made from, if no key stands twice among them. -/
private theorem ofList_perm {entries : List (String × α)} (h : (entries.map Prod.fst).Nodup) :
    (ofList entries).Perm entries := by
  -- Read from the end: the last entry is written under a key that the others do not have.
  induction entries using List.reverseRecOn with
  | nil => exact .refl _
  | append_singleton entries e ih =>
    rw [List.map_append, List.nodup_append] at h
    obtain ⟨hentries, -, hapart⟩ := h
    have hmap := ih hentries
    have hnew : ∀ f ∈ ofList entries, f.1 ≠ e.1 := fun f hf =>
      hapart f.1 (List.mem_map_of_mem (hmap.mem_iff.mp hf)) e.1 List.mem_cons_self
    rw [ofList, List.foldl_append]
    exact ((insert_perm e.2 hnew).trans (hmap.cons e)).trans
      (List.perm_append_singleton e entries).symm

/-- The order of entries by the bytes of their keys. -/
def KeyLE (e f : String × α) : Prop := Text.bytes e.1 ≤ Text.bytes f.1

instance : DecidableRel (KeyLE (α := α)) := fun e f =>
  inferInstanceAs (Decidable (Text.bytes e.1 ≤ Text.bytes f.1))

instance : Std.Total (KeyLE (α := α)) where
  total e f := by
    unfold KeyLE
    rw [Text.bytes_le_bytes_iff, Text.bytes_le_bytes_iff]
    exact le_total e.1 f.1

instance : IsTrans (String × α) KeyLE where
  trans e f g := by
    unfold KeyLE
    rw [Text.bytes_le_bytes_iff, Text.bytes_le_bytes_iff, Text.bytes_le_bytes_iff]
    exact le_trans

/-- **Sorting by the bytes of the keys** makes a list of entries into their map, if no key stands
twice among them. -/
theorem ofList_eq_insertionSort {entries : List (String × α)} (h : (entries.map Prod.fst).Nodup) :
    ofList entries = entries.insertionSort KeyLE := by
  have hmap : (ofList entries).Pairwise KeyLE :=
    (ascending_ofList entries).imp fun hlt => Text.bytes_le_bytes_iff.mpr (le_of_lt hlt)
  refine List.Perm.eq_of_pairwise (fun e f he hf hle hge => ?_) hmap
    (List.pairwise_insertionSort KeyLE entries)
    ((ofList_perm h).trans (List.perm_insertionSort KeyLE entries).symm)
  have hkey : e.1 = f.1 :=
    le_antisymm (Text.bytes_le_bytes_iff.mp hle) (Text.bytes_le_bytes_iff.mp hge)
  exact List.inj_on_of_nodup_map h ((ofList_perm h).mem_iff.mp he)
    ((List.mem_insertionSort KeyLE).mp hf) hkey

/-- Two entries of the same key, with related values. -/
def Under {β : Type} (r : α → β → Prop) (e : String × α) (f : String × β) : Prop :=
  e.1 = f.1 ∧ r e.2 f.2

section Under

variable {β : Type} {r : α → β → Prop}

private theorem insert_under (key : String) {v : α} {w : β} (hvw : r v w) {m : List (String × α)}
    {n : List (String × β)} (h : List.Forall₂ (Under r) m n) :
    List.Forall₂ (Under r) (insert key v m) (insert key w n) := by
  induction h with
  | nil => exact .cons ⟨rfl, hvw⟩ .nil
  | @cons e f m n hef h ih =>
    obtain ⟨k, a⟩ := e
    obtain ⟨l, b⟩ := f
    obtain ⟨rfl, hab⟩ := hef
    rw [insert, insert]
    split
    · exact .cons ⟨rfl, hvw⟩ (.cons ⟨rfl, hab⟩ h)
    · split
      · exact .cons ⟨rfl, hvw⟩ h
      · exact .cons ⟨rfl, hab⟩ ih

/-- Entries with related values make maps with related values. -/
theorem ofList_under {entries : List (String × α)} {entries' : List (String × β)}
    (h : List.Forall₂ (Under r) entries entries') :
    List.Forall₂ (Under r) (ofList entries) (ofList entries') := by
  refine List.rel_foldl (P := List.Forall₂ (Under r)) (fun m n hmn e f hef => ?_) .nil h
  rw [hef.1]
  exact insert_under f.1 hef.2 hmn

end Under

end SortedMap

end DocQuery
