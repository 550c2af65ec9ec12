import DocQuery.Proofs.WrittenPaths
import Mathlib.Algebra.Order.BigOperators.Group.List
import Mathlib.Algebra.Order.Group.Nat

/-!
# Writing several paths again

Writes at several paths may overlap: a later one can replace what an earlier one wrote, or lead
through it, and a scalar can be replaced by a document that a still later one fills. Nevertheless
writing all of them a second time changes nothing (`Document.writeEach_writeEach`).

What writes leave under a key depends on those through this key alone, by what remains of their
paths behind it (`Document.value?_writeAll`). If one of these ends at the key, what stood there
before does not matter (`Value.writeAllIn_of_nil_mem`), and otherwise they are writes into the
document there, with shorter paths; so each key is settled by induction on the lengths of the paths.
That the keys keep their order is `Document.Aligned`.
-/

namespace DocQuery

/-! ### Documents with the same keys -/

namespace Document

/-- Two documents have the same keys in the same order, and under a key that repeats, or is among
the given ones, the same value. -/
inductive Aligned : List String → Document → Document → Prop
  | nil {seen : List String} : Aligned seen [] []
  | cons {seen : List String} {key : String} {v w : Value} {d e : Document}
      (h : key ∈ seen → v = w) (hrest : Aligned (key :: seen) d e) :
      Aligned seen ((key, v) :: d) ((key, w) :: e)

namespace Aligned

variable {seen : List String} {d e : Document}

private theorem refl (seen : List String) (d : Document) : Aligned seen d d := by
  induction d generalizing seen with
  | nil => exact nil
  | cons entry d ih => exact cons (fun _ => rfl) (ih _)

theorem keys_eq (h : Aligned seen d e) : d.keys = e.keys := by
  induction h with
  | nil => rfl
  | cons _ _ ih => exact congrArg (_ :: ·) ih

/-- Writing under a key that is there moves none of the keys. -/
private theorem put (h : Aligned seen d e) {key : String} (hmem : key ∈ d.keys) (hseen : key ∉ seen)
    (v : Value) : Aligned seen (d.put key v) e := by
  induction h with
  | nil => cases hmem
  | @cons seen first w _ d e h hrest ih =>
    rw [Document.put]
    split
    · next heq =>
      subst heq
      exact cons (fun hfirst => absurd hfirst hseen) hrest
    · next hne =>
      have hmem' : key ∈ keys d := (List.mem_cons.mp hmem).resolve_left (Ne.symm hne)
      exact cons h (ih hmem' (List.not_mem_cons_of_ne_of_not_mem (Ne.symm hne) hseen))

/-- Documents that are aligned are equal when they hold the same under every key. -/
theorem eq_of_value?_eq (h : Aligned seen d e)
    (hvalue : ∀ key ∉ seen, d.value? key = e.value? key) : d = e := by
  induction h with
  | nil => rfl
  | @cons seen first v w d e h _ ih =>
    have hfirst : v = w := by
      by_cases hseen : first ∈ seen
      · exact h hseen
      · have heq := hvalue first hseen
        rw [value?_cons, value?_cons, if_pos rfl, if_pos rfl] at heq
        exact Option.some.inj heq
    have hrest : d = e := ih fun key hkey => by
      obtain ⟨hne, hseen⟩ := List.ne_and_not_mem_of_not_mem_cons hkey
      have heq := hvalue key hseen
      rwa [value?_cons, value?_cons, if_neg (Ne.symm hne), if_neg (Ne.symm hne)] at heq
    rw [hfirst, hrest]

end Aligned

/-! ### Writes under a key -/

/-- Write several values, each at the place that its keys lead to, in order. -/
def writeAll (writes : List (List String × Value)) (d : Document) : Document :=
  writes.foldl (fun d w => writeAt w.1 d w.2) d

/-- What remains behind a key of the writes that lead through it. -/
def writesUnder (key : String) (writes : List (List String × Value)) :
    List (List String × Value) :=
  writes.filterMap fun
    | ([], _) => none
    | (first :: rest, v) => if first = key then some (rest, v) else none

private theorem mem_writesUnder {key : String} {writes : List (List String × Value)}
    {keys : List String} {v : Value} :
    (keys, v) ∈ writesUnder key writes ↔ (key :: keys, v) ∈ writes := by
  rw [writesUnder, List.mem_filterMap]
  constructor
  · rintro ⟨⟨_ | ⟨first, rest⟩, w⟩, hmem, h⟩
    · cases h
    · obtain ⟨rfl, rfl, rfl⟩ : first = key ∧ rest = keys ∧ w = v := by simpa using h
      exact hmem
  · exact fun h => ⟨(key :: keys, v), h, if_pos rfl⟩

end Document

namespace Value

/-- The document that stands in a place, or the empty one. -/
def documentIn : Option Value → Document
  | some (.document d) => d
  | _ => []

/-- What stands in a place after a value was written there, or at keys that lead on from it. -/
def writeIn (place : Option Value) (keys : List String) (v : Value) : Value :=
  match keys with
  | [] => v
  | key :: keys => .document (Document.writeAt (key :: keys) (documentIn place) v)

/-- What stands in a place after several writes there. -/
def writeAllIn (writes : List (List String × Value)) (place : Option Value) : Option Value :=
  writes.foldl (fun place w => some (writeIn place w.1 w.2)) place

theorem writeAllIn_cons (keys : List String) (v : Value) (writes : List (List String × Value))
    (place : Option Value) :
    writeAllIn ((keys, v) :: writes) place = writeAllIn writes (some (writeIn place keys v)) := rfl

end Value

namespace Document

open Value

variable {writes : List (List String × Value)}

theorem writeAll_cons (keys : List String) (v : Value) (writes : List (List String × Value))
    (d : Document) : writeAll ((keys, v) :: writes) d = writeAll writes (writeAt keys d v) := rfl

/-- A write at keys is one under the first of them. -/
theorem writeAt_cons (key : String) (keys : List String) (d : Document) (v : Value) :
    writeAt (key :: keys) d v = d.put key (writeIn (d.value? key) keys v) := by
  rcases keys with _ | ⟨next, keys⟩
  · rfl
  · have hchild : d.child key = documentIn (d.value? key) := by
      unfold child
      rcases d.value? key with _ | (_ | _ | _) <;> rfl
    rw [writeIn, ← hchild]
    rfl

/-- **What several writes leave under a key** is what those through the key make of what stood
there. -/
theorem value?_writeAll (writes : List (List String × Value)) (d : Document) (key : String) :
    (writeAll writes d).value? key = writeAllIn (writesUnder key writes) (d.value? key) := by
  induction writes generalizing d with
  | nil => rfl
  | cons w writes ih =>
    obtain ⟨_ | ⟨first, keys⟩, v⟩ := w
    · exact ih d
    rw [writeAll_cons, ih, writeAt_cons]
    by_cases hkey : first = key
    · subst hkey
      have hunder : writesUnder first ((first :: keys, v) :: writes) =
          (keys, v) :: writesUnder first writes := by simp [writesUnder]
      rw [hunder, writeAllIn_cons, value?_put_self]
    · have hunder : writesUnder key ((first :: keys, v) :: writes) = writesUnder key writes := by
        simp [writesUnder, hkey]
      rw [hunder, value?_put_of_ne d _ hkey]

end Document

/-! ### Writes in a place -/

namespace Value

variable {writes : List (List String × Value)}

/-- Writes of which one replaces the whole place do not depend on what stood there. -/
theorem writeAllIn_of_nil_mem (h : ∃ v, ([], v) ∈ writes) (place place' : Option Value) :
    writeAllIn writes place = writeAllIn writes place' := by
  induction writes generalizing place place' with
  | nil => simp at h
  | cons w writes ih =>
    obtain ⟨_ | ⟨key, keys⟩, v⟩ := w
    · rfl
    · have hrest : ∃ v, ([], v) ∈ writes := by simpa using h
      exact ih hrest _ _

/-- Writes of which none replaces the whole place are writes into the document there. -/
private theorem documentIn_writeAllIn (h : ¬ ∃ v, ([], v) ∈ writes) (place : Option Value) :
    documentIn (writeAllIn writes place) = Document.writeAll writes (documentIn place) := by
  induction writes generalizing place with
  | nil => rfl
  | cons w writes ih =>
    obtain ⟨_ | ⟨key, keys⟩, v⟩ := w
    · exact absurd ⟨v, List.mem_cons_self⟩ h
    · exact ih (fun ⟨v, hmem⟩ => h ⟨v, List.mem_cons_of_mem _ hmem⟩) _

/-- Writes leave something in the place, if there are any. -/
private theorem exists_of_writeAllIn (hwrites : writes ≠ []) (place : Option Value) :
    ∃ v, writeAllIn writes place = some v := by
  induction writes generalizing place with
  | nil => exact absurd rfl hwrites
  | cons w writes ih =>
    rcases writes with _ | ⟨next, writes⟩
    · exact ⟨_, rfl⟩
    · exact ih (List.cons_ne_nil _ _) _

/-- It is a document if none of them replaces the whole place. -/
private theorem exists_document_of_writeAllIn (hwrites : writes ≠ []) (h : ¬ ∃ v, ([], v) ∈ writes)
    (place : Option Value) : ∃ d, writeAllIn writes place = some (.document d) := by
  induction writes generalizing place with
  | nil => exact absurd rfl hwrites
  | cons w writes ih =>
    obtain ⟨_ | ⟨key, keys⟩, v⟩ := w
    · exact absurd ⟨v, List.mem_cons_self⟩ h
    · rcases writes with _ | ⟨next, writes⟩
      · exact ⟨_, rfl⟩
      · exact ih (List.cons_ne_nil _ _) (fun ⟨v, hmem⟩ => h ⟨v, List.mem_cons_of_mem _ hmem⟩) _

/-- Writing in a place again changes nothing where writing into a document does not. -/
private theorem writeAllIn_writeAllIn
    (h : ∀ d, Document.writeAll writes (Document.writeAll writes d) = Document.writeAll writes d)
    (place : Option Value) :
    writeAllIn writes (writeAllIn writes place) = writeAllIn writes place := by
  by_cases hnil : ∃ v, ([], v) ∈ writes
  · exact writeAllIn_of_nil_mem hnil _ _
  rcases eq_or_ne writes [] with rfl | hwrites
  · rfl
  -- A document stands there after either run, and the two are the same.
  obtain ⟨d, hd⟩ := exists_document_of_writeAllIn hwrites hnil place
  obtain ⟨e, he⟩ := exists_document_of_writeAllIn hwrites hnil (writeAllIn writes place)
  have hdoc : d = Document.writeAll writes (documentIn place) := by
    rw [← documentIn_writeAllIn hnil, hd, documentIn]
  have heoc : e = Document.writeAll writes d := by
    have hagain := documentIn_writeAllIn hnil (writeAllIn writes place)
    rwa [he, hd, documentIn, documentIn] at hagain
  rw [he, hd, heoc, hdoc, h]

end Value

/-! ### Writing again -/

namespace Document

variable {writes : List (List String × Value)}

/-- Writes under keys that a document has leave it aligned. -/
private theorem aligned_writeAll {d e : Document} (h : Aligned [] d e)
    (hkeys : ∀ key keys v, (key :: keys, v) ∈ writes → key ∈ e.keys) :
    Aligned [] (writeAll writes d) e := by
  induction writes generalizing d with
  | nil => exact h
  | cons w writes ih =>
    obtain ⟨_ | ⟨key, keys⟩, v⟩ := w
    · exact ih h fun key keys v hmem => hkeys key keys v (List.mem_cons_of_mem _ hmem)
    · have hmem : key ∈ d.keys := by
        rw [h.keys_eq]
        exact hkeys key keys v List.mem_cons_self
      rw [writeAll_cons, writeAt_cons]
      exact ih (h.put hmem List.not_mem_nil _)
        fun key keys v hmem => hkeys key keys v (List.mem_cons_of_mem _ hmem)

/-- Writes that change nothing under any key change nothing. -/
theorem writeAll_eq_self {d : Document}
    (h : ∀ key, Value.writeAllIn (writesUnder key writes) (d.value? key) = d.value? key) :
    writeAll writes d = d := by
  have hkeys : ∀ key keys v, (key :: keys, v) ∈ writes → key ∈ d.keys := by
    intro key keys v hmem
    by_contra hnot
    have hnone := h key
    rw [value?_eq_none_iff.mpr hnot] at hnone
    have hunder : writesUnder key writes ≠ [] := List.ne_nil_of_mem (mem_writesUnder.mpr hmem)
    obtain ⟨w, hw⟩ := Value.exists_of_writeAllIn hunder none
    rw [hw] at hnone
    cases hnone
  refine (aligned_writeAll (Aligned.refl [] d) hkeys).eq_of_value?_eq fun key _ => ?_
  rw [value?_writeAll, h]

/-- Writes of paths up to a length can be repeated. -/
private theorem writeAll_writeAll {n : Nat} (h : ∀ keys v, (keys, v) ∈ writes → keys.length ≤ n)
    (d : Document) : writeAll writes (writeAll writes d) = writeAll writes d := by
  induction n generalizing writes d with
  | zero =>
    refine writeAll_eq_self fun key => ?_
    have hunder : writesUnder key writes = [] := List.eq_nil_iff_forall_not_mem.mpr
      fun ⟨keys, v⟩ hmem => absurd (h (key :: keys) v (mem_writesUnder.mp hmem)) (by simp)
    rw [hunder]
    rfl
  | succ n ih =>
    refine writeAll_eq_self fun key => ?_
    have hunder : ∀ keys v, (keys, v) ∈ writesUnder key writes → keys.length ≤ n :=
      fun keys v hmem => Nat.le_of_succ_le_succ (h (key :: keys) v (mem_writesUnder.mp hmem))
    rw [value?_writeAll]
    exact Value.writeAllIn_writeAllIn (ih hunder) _

/-- **Writing several paths again** changes nothing. -/
theorem writeEach_writeEach (fields d : Document) :
    (d.writeEach fields).writeEach fields = d.writeEach fields := by
  have hall : ∀ d : Document, d.writeEach fields =
      writeAll (fields.map fun e => (Path.segments e.1, e.2)) d := by
    intro d
    rw [writeAll, List.foldl_map]
    rfl
  have hlength : ∀ keys v, (keys, v) ∈ fields.map (fun e => (Path.segments e.1, e.2)) →
      keys.length ≤ (fields.map fun e => (Path.segments e.1).length).sum := by
    intro keys v hmem
    obtain ⟨e, he, heq⟩ := List.mem_map.mp hmem
    obtain ⟨rfl, rfl⟩ := Prod.mk.inj heq
    exact List.le_sum_of_mem (List.mem_map_of_mem he)
  rw [hall, hall, writeAll_writeAll hlength]

end Document

end DocQuery
