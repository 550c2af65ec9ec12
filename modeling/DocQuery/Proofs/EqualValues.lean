import DocQuery.Proofs.Equality
import DocQuery.Proofs.ValueParts

/-!
# Equal values

Query equality is no equivalence on all values: a NaN is not equal to itself, and an integer can be
equal to the double nearest to it, to which other integers are equal, too. Without doubles it comes
down to equality of form: `Value.widened` writes all integers in 64 bits, and two values without
doubles are equal exactly when they are the same value once they are widened
(`Value.equal_iff_widened`). So it is reflexive and transitive on these values (`Value.equal_self`,
`Value.equal_trans`).
-/

namespace DocQuery

/-! ### Atoms -/

namespace Atom

/-- The atom with its integer in 64 bits, if it is one. -/
def widened : Atom → Atom
  | .int32 n => .int64 (Int64.ofInt n.toInt)
  | a => a

/-- Widening keeps the integer. -/
private theorem int?_widened (a : Atom) : a.widened.int? = a.int? := by
  cases a with
  | int32 n =>
    have hle := n.le_toInt
    have hlt := n.toInt_lt
    exact congrArg some (Int64.toInt_ofInt_of_le (by omega) (by omega))
  | _ => rfl

/-- An integer determines its widened form. -/
private theorem widened_of_int? {a : Atom} {n : Int} (h : a.int? = some n) :
    a.widened = .int64 (Int64.ofInt n) := by
  cases a <;> cases h
  · rfl
  · rw [Int64.ofInt_toInt]
    rfl

/-- What is no integer is its own widened form. -/
private theorem widened_of_int?_eq_none {a : Atom} (h : a.int? = none) : a.widened = a := by
  cases a <;> first | rfl | cases h

/-- Among atoms without a double only integers are numbers. -/
private theorem double?_eq_none {a : Atom} (ha : Value.isDouble (.atom a) = false)
    (h : a.int? = none) :
    a.double? = none := by
  cases a with
  | double x => cases ha
  | int32 n => cases h
  | int64 n => cases h
  | _ => rfl

private theorem same_eq_beq {a : Atom} (ha : Value.isDouble (.atom a) = false) (b : Atom) :
    a.same b = (a == b) := by
  cases a with
  | double x => cases ha
  | _ => rfl

/-- Query equality of atoms that are no doubles is equality of their widened forms. -/
theorem equal_iff_widened {a b : Atom} (ha : Value.isDouble (.atom a) = false)
    (hb : Value.isDouble (.atom b) = false) : a.equal b = true ↔ a.widened = b.widened := by
  rcases hm : a.int? with _ | m
  · have hequal : a.equal b = (a == b) := by
      rw [equal, numericOrder?, hm, double?_eq_none ha hm]
      exact same_eq_beq ha b
    rw [hequal, beq_iff_eq, widened_of_int?_eq_none hm]
    rcases hn : b.int? with _ | n
    · rw [widened_of_int?_eq_none hn]
    · -- An integer is not what is none, widened or not.
      refine iff_of_false (fun h => ?_) fun h => ?_
      · rw [h, hn] at hm
        cases hm
      · rw [h, int?_widened, hn] at hm
        cases hm
  · rcases hn : b.int? with _ | n
    · have hequal : a.equal b = (a == b) := by
        rw [equal, numericOrder?, hm, hn, double?_eq_none hb hn]
        rcases a.double? with _ | x <;> exact same_eq_beq ha b
      rw [hequal, beq_iff_eq, widened_of_int?_eq_none hn]
      refine iff_of_false (fun h => ?_) fun h => ?_
      · rw [h, hn] at hm
        cases hm
      · rw [← h, int?_widened, hm] at hn
        cases hn
    · have hequal : a.equal b = (compare m n == .eq) := by
        rw [equal, numericOrder?, hm, hn]
      rw [hequal, beq_iff_eq, Std.LawfulEqCmp.compare_eq_iff_eq]
      constructor
      · rintro rfl
        rw [widened_of_int? hm, widened_of_int? hn]
      · intro h
        have hint := congrArg int? h
        rw [int?_widened, int?_widened, hm, hn] at hint
        exact Option.some.inj hint

end Atom

/-! ### Values -/

namespace Value

/-- There is no double in the value. -/
def IsDoubleFree (v : Value) : Prop := v.All fun part => part.isDouble = false

instance (v : Value) : Decidable v.IsDoubleFree :=
  inferInstanceAs (Decidable (∀ part ∈ v.parts, part.isDouble = false))

mutual

/-- The value with all of its integers in 64 bits. -/
def widened : Value → Value
  | .atom a => .atom a.widened
  | .array items => .array (widenedItems items)
  | .document d => .document (widenedEntries d)

/-- Several values with their integers in 64 bits. -/
def widenedItems : List Value → List Value
  | [] => []
  | v :: vs => widened v :: widenedItems vs

/-- The entries of a document with their integers in 64 bits. -/
def widenedEntries : List (String × Value) → List (String × Value)
  | [] => []
  | (k, v) :: d => (k, widened v) :: widenedEntries d

end

mutual

/-- **Query equality** of values without doubles is equality of their widened forms. -/
theorem equal_iff_widened : (v w : Value) → v.IsDoubleFree → w.IsDoubleFree →
    (v.equal w = true ↔ v.widened = w.widened)
  | .atom a, .atom b, hv, hw => by
    rw [equal, widened, widened, Atom.equal_iff_widened (all_atom.mp hv) (all_atom.mp hw),
      Value.atom.injEq]
  | .array xs, .array ys, hv, hw => by
    rw [equal, widened, widened,
      equalItems_iff_widened xs ys (all_array.mp hv).2 (all_array.mp hw).2, Value.array.injEq]
  | .document d, .document e, hv, hw => by
    rw [equal, widened, widened,
      equalEntries_iff_widened d e (all_document.mp hv).2 (all_document.mp hw).2,
      Value.document.injEq]
  | .atom _, .array _, _, _ => by simp [equal, widened]
  | .atom _, .document _, _, _ => by simp [equal, widened]
  | .array _, .atom _, _, _ => by simp [equal, widened]
  | .array _, .document _, _, _ => by simp [equal, widened]
  | .document _, .atom _, _, _ => by simp [equal, widened]
  | .document _, .array _, _, _ => by simp [equal, widened]

/-- The same for the items of arrays. -/
theorem equalItems_iff_widened : (xs ys : List Value) → (∀ v ∈ xs, v.IsDoubleFree) →
    (∀ w ∈ ys, w.IsDoubleFree) → (equalItems xs ys = true ↔ widenedItems xs = widenedItems ys)
  | [], [], _, _ => by simp [equalItems]
  | [], _ :: _, _, _ => by simp [equalItems, widenedItems]
  | _ :: _, [], _, _ => by simp [equalItems, widenedItems]
  | x :: xs, y :: ys, hxs, hys => by
    obtain ⟨hx, hxs⟩ := List.forall_mem_cons.mp hxs
    obtain ⟨hy, hys⟩ := List.forall_mem_cons.mp hys
    rw [equalItems, Bool.and_eq_true, equal_iff_widened x y hx hy,
      equalItems_iff_widened xs ys hxs hys, widenedItems, widenedItems, List.cons.injEq]

/-- The same for the entries of documents. -/
theorem equalEntries_iff_widened : (d e : List (String × Value)) →
    (∀ entry ∈ d, entry.2.IsDoubleFree) → (∀ entry ∈ e, entry.2.IsDoubleFree) →
    (equalEntries d e = true ↔ widenedEntries d = widenedEntries e)
  | [], [], _, _ => by simp [equalEntries]
  | [], _ :: _, _, _ => by simp [equalEntries, widenedEntries]
  | _ :: _, [], _, _ => by simp [equalEntries, widenedEntries]
  | (k, v) :: d, (l, w) :: e, hd, he => by
    obtain ⟨hv, hd⟩ := List.forall_mem_cons.mp hd
    obtain ⟨hw, he⟩ := List.forall_mem_cons.mp he
    rw [equalEntries, Bool.and_eq_true, Bool.and_eq_true, beq_iff_eq, equal_iff_widened v w hv hw,
      equalEntries_iff_widened d e hd he, widenedEntries, widenedEntries, List.cons.injEq,
      Prod.mk.injEq]

end

section Laws

variable {u v w : Value}

/-- A value without doubles is equal to itself. -/
theorem equal_self (hv : v.IsDoubleFree) : v.equal v = true := (equal_iff_widened v v hv hv).mpr rfl

/-- Query equality is transitive on values without doubles. -/
theorem equal_trans (hu : u.IsDoubleFree) (hv : v.IsDoubleFree) (hw : w.IsDoubleFree)
    (huv : u.equal v = true) (hvw : v.equal w = true) : u.equal w = true :=
  (equal_iff_widened u w hu hw).mpr
    (((equal_iff_widened u v hu hv).mp huv).trans ((equal_iff_widened v w hv hw).mp hvw))

end Laws

end Value

end DocQuery
