import DocQuery.Value.Order

/-!
# Query equality is symmetric

`Value.equal` decides whether two values count as equal in a query or under a unique index. It goes
through a comparison of numbers first and falls back to equality in storage, so its symmetry comes
from that of the two comparisons: numbers are swapped with their order (`Double.compare?_swap`,
`Atom.numericOrder?_swap`), and everything else by symmetry of the equality of kinds and contents.
For arrays and documents it is an induction on the first value.
-/

namespace DocQuery

/-! ### Numbers -/

/-- Integers compare the other way round when they are swapped. -/
private theorem compare_int_swap (m n : Int) : compare n m = (compare m n).swap :=
  Std.OrientedCmp.eq_swap

/-- Two doubles compare the other way round when they are swapped. -/
theorem Double.compare?_swap (a b : Double) : b.compare? a = (a.compare? b).map Ordering.swap := by
  unfold Double.compare?
  rcases a.key? with _ | x <;> rcases b.key? with _ | y <;> try rfl
  simp only [Option.map_some, compare_int_swap x y]

/-- Numeric equality of doubles is symmetric, also where one of them is no number. -/
theorem Double.numEq_comm (a b : Double) : a.numEq b = b.numEq a := by
  unfold Double.numEq
  rw [Double.compare?_swap a b]
  rcases a.compare? b with _ | o
  · rfl
  · cases o <;> rfl

/-- Two numbers of any kinds compare the other way round when they are swapped. -/
theorem Atom.numericOrder?_swap (a b : Atom) :
    b.numericOrder? a = (a.numericOrder? b).map Ordering.swap := by
  unfold Atom.numericOrder?
  rcases a.int? with _ | m <;> rcases b.int? with _ | n
  case some.some => simp only [Option.map_some, compare_int_swap m n]
  -- Unless both are integers, they compare as doubles.
  all_goals
    rcases a.double? with _ | x <;> rcases b.double? with _ | y <;> try rfl
    exact Double.compare?_swap x y

/-! ### Values -/

/-- Equality of atoms in storage is symmetric. -/
theorem Atom.same_comm (a b : Atom) : a.same b = b.same a := by
  unfold Atom.same
  split
  · next x y => exact Double.numEq_comm x y
  · next hab =>
    split
    · next x y => exact absurd rfl (hab y x rfl)
    · exact Bool.beq_comm

/-- Query equality of atoms is symmetric. -/
theorem Atom.equal_comm (a b : Atom) : a.equal b = b.equal a := by
  unfold Atom.equal
  rw [Atom.numericOrder?_swap a b]
  rcases a.numericOrder? b with _ | o
  · exact Atom.same_comm a b
  · cases o <;> rfl

namespace Value

mutual

/-- **Query equality is symmetric.** -/
theorem equal_comm : (v w : Value) → v.equal w = w.equal v
  | .atom a, .atom b => by simpa only [equal] using Atom.equal_comm a b
  | .array xs, .array ys => by simpa only [equal] using equalItems_comm xs ys
  | .document d, .document e => by simpa only [equal] using equalEntries_comm d e
  | .atom _, .array _ => by simp only [equal]
  | .atom _, .document _ => by simp only [equal]
  | .array _, .atom _ => by simp only [equal]
  | .array _, .document _ => by simp only [equal]
  | .document _, .atom _ => by simp only [equal]
  | .document _, .array _ => by simp only [equal]

/-- Equality of lists of values, element by element, is symmetric. -/
theorem equalItems_comm : (xs ys : List Value) → equalItems xs ys = equalItems ys xs
  | [], [] => rfl
  | [], _ :: _ => by simp only [equalItems]
  | _ :: _, [] => by simp only [equalItems]
  | x :: xs, y :: ys => by
    simp only [equalItems]
    rw [equal_comm x y, equalItems_comm xs ys]

/-- Equality of lists of entries is symmetric. -/
theorem equalEntries_comm : (d e : List (String × Value)) → equalEntries d e = equalEntries e d
  | [], [] => rfl
  | [], _ :: _ => by simp only [equalEntries]
  | _ :: _, [] => by simp only [equalEntries]
  | (k, v) :: d, (l, w) :: e => by
    simp only [equalEntries]
    rw [equal_comm v w, equalEntries_comm d e, Bool.beq_comm (a := k)]

end

/-- Two lists of values of one length are equal when they are equal at every position. -/
theorem equalItems_map_iff {α : Type} (f g : α → Value) (l : List α) :
    equalItems (l.map f) (l.map g) = true ↔ ∀ a ∈ l, (f a).equal (g a) = true := by
  induction l with
  | nil => simp [equalItems]
  | cons a l ih => simp [equalItems, ih]

end Value

end DocQuery
