import DocQuery.Proofs.EqualValues
import Mathlib.Data.List.Forall2

/-!
# The laws of query equality

Unique indexes, groups, membership and joins go by `Value.equal`. On values without doubles it is an
equivalence (`Value.equal_self`, `Value.equal_comm`, `Value.equal_trans`), and it is made of
equality of the parts: arrays are equal when they are as long and equal element by element
(`Value.equal_array_iff`), documents when they have the same keys in the same order with equal
values (`Value.equal_document_iff`), and two values that differ in one place, at any depth, are
equal when what they have there is (`Value.DifferAt.equal_iff`). So an integer that is stored in
another width changes nothing, wherever it stands.
-/

namespace DocQuery

namespace Value

/-! ### Arrays and documents -/

theorem equalItems_iff {xs ys : List Value} :
    equalItems xs ys = true ↔ List.Forall₂ (fun x y => x.equal y = true) xs ys := by
  induction xs generalizing ys with
  | nil => cases ys <;> simp [equalItems]
  | cons x xs ih =>
    cases ys with
    | nil => simp [equalItems]
    | cons y ys => rw [equalItems, Bool.and_eq_true, ih, List.forall₂_cons]

theorem equalEntries_iff {d e : Document} :
    equalEntries d e = true ↔ List.Forall₂ (fun x y => x.1 = y.1 ∧ x.2.equal y.2 = true) d e := by
  induction d generalizing e with
  | nil => cases e <;> simp [equalEntries]
  | cons x d ih =>
    cases e with
    | nil => simp [equalEntries]
    | cons y e =>
      rw [equalEntries, Bool.and_eq_true, Bool.and_eq_true, beq_iff_eq, ih, List.forall₂_cons]

/-- Arrays are equal when they are as long and equal element by element. -/
theorem equal_array_iff {xs ys : List Value} :
    (array xs).equal (array ys) = true ↔ List.Forall₂ (fun x y => x.equal y = true) xs ys := by
  rw [equal, equalItems_iff]

/-- Documents are equal when they have the same keys in the same order, with equal values. -/
theorem equal_document_iff {d e : Document} :
    (document d).equal (document e) = true ↔
      List.Forall₂ (fun x y => x.1 = y.1 ∧ x.2.equal y.2 = true) d e := by
  rw [equal, equalEntries_iff]

/-! ### One place -/

/-- Two values that differ in one place, where the one has `v` and the other `w`. -/
inductive DifferAt (v w : Value) : Value → Value → Prop
  | here : DifferAt v w v w
  /-- The place is inside an element of an array. -/
  | item (before after : List Value) {x y : Value} (h : DifferAt v w x y) :
    DifferAt v w (.array (before ++ x :: after)) (.array (before ++ y :: after))
  /-- The place is inside the value of a key. -/
  | entry (before after : Document) (key : String) {x y : Value} (h : DifferAt v w x y) :
    DifferAt v w (.document (before ++ (key, x) :: after)) (.document (before ++ (key, y) :: after))

/-- A relation that lists have with themselves need be looked at in one place alone, if they differ
only there. -/
private theorem forall₂_around {α : Type} {r : α → α → Prop} {before after : List α} {x y : α}
    (hbefore : ∀ a ∈ before, r a a) (hafter : ∀ a ∈ after, r a a) :
    List.Forall₂ r (before ++ x :: after) (before ++ y :: after) ↔ r x y := by
  induction before with
  | nil =>
    rw [List.nil_append, List.nil_append, List.forall₂_cons,
      and_iff_left (List.forall₂_same.mpr hafter)]
  | cons a before ih =>
    obtain ⟨ha, hbefore⟩ := List.forall_mem_cons.mp hbefore
    rw [List.cons_append, List.cons_append, List.forall₂_cons, ih hbefore, and_iff_right ha]

/-- **Values that differ in one place** are equal exactly if what they have there is, when there is
no double around it. -/
theorem DifferAt.equal_iff {v w x y : Value} (h : DifferAt v w x y) (hx : x.IsDoubleFree) :
    x.equal y = true ↔ v.equal w = true := by
  induction h with
  | here => rfl
  | item before after h ih =>
    have hitems := (all_array.mp hx).2
    rw [equal_array_iff, forall₂_around, ih]
    · exact hitems _ (List.mem_append_right _ List.mem_cons_self)
    · exact fun a ha => equal_self (hitems a (List.mem_append_left _ ha))
    · exact fun a ha => equal_self (hitems a (List.mem_append_right _ (List.mem_cons_of_mem _ ha)))
  | entry before after key h ih =>
    have hentries := (all_document.mp hx).2
    rw [equal_document_iff, forall₂_around, and_iff_right rfl, ih]
    · exact hentries _ (List.mem_append_right _ List.mem_cons_self)
    · exact fun a ha => ⟨rfl, equal_self (hentries a (List.mem_append_left _ ha))⟩
    · exact fun a ha =>
        ⟨rfl, equal_self (hentries a (List.mem_append_right _ (List.mem_cons_of_mem _ ha)))⟩

/-- Integers of the two widths are equal when they are the same number. -/
theorem equal_int32_int64_iff (m : Int32) (n : Int64) :
    (int32 m).equal (int64 n) = true ↔ m.toInt = n.toInt := by
  have hequal : (int32 m).equal (int64 n) = (compare m.toInt n.toInt == .eq) := by
    rw [equal]
    rfl
  rw [hequal, beq_iff_eq, Std.LawfulEqCmp.compare_eq_iff_eq]

/-! ### The laws -/

/-- **Query equality is an equivalence** on values without doubles. Of two values that differ in one
place, where the one has an integer in 32 bits and the other one in 64 bits, it holds exactly if
these are the same number, whether they stand alone or inside arrays and documents. Arrays are equal
exactly if they are as long and equal element by element, and documents exactly if they have the
same keys in the same order with equal values. -/
theorem equal_equivalence :
    Equivalence (fun v w : {v : Value // v.IsDoubleFree} => v.1.equal w.1 = true) ∧
      (∀ (m : Int32) (n : Int64) (x y : Value), DifferAt (.int32 m) (.int64 n) x y →
        x.IsDoubleFree → (x.equal y = true ↔ m.toInt = n.toInt)) ∧
      (∀ xs ys : List Value, (array xs).equal (array ys) = true ↔
        List.Forall₂ (fun x y => x.equal y = true) xs ys) ∧
      ∀ d e : Document, (document d).equal (document e) = true ↔
        List.Forall₂ (fun x y => x.1 = y.1 ∧ x.2.equal y.2 = true) d e := by
  refine ⟨⟨fun v => equal_self v.2, fun {v w} h => ?_, fun {u v w} => equal_trans u.2 v.2 w.2⟩,
    fun m n x y h hx => ?_, fun xs ys => equal_array_iff, fun d e => equal_document_iff⟩
  · rw [equal_comm]
    exact h
  · rw [h.equal_iff hx, equal_int32_int64_iff]

/-- A note that counts its readers in 32 bits is equal, both ways, to the note that counts as many
in 64 bits, and not to one that counts another number. -/
theorem equal_equivalence_countedNotes :
    let note := fun count : Value => document [("by", string "ann"), ("read", array [count])]
    (note (int32 5)).IsDoubleFree ∧ (note (int64 5)).IsDoubleFree ∧
      DifferAt (int32 5) (int64 5) (note (int32 5)) (note (int64 5)) ∧
      (note (int32 5)).equal (note (int64 5)) = true ∧
      (note (int64 5)).equal (note (int32 5)) = true ∧
      (note (int32 5)).equal (note (int64 6)) = false := by
  intro note
  have hnarrow : (note (int32 5)).IsDoubleFree := by decide
  have hwide : (note (int64 5)).IsDoubleFree := by decide
  have hdiffer : ∀ v w, DifferAt v w (note v) (note w) := fun v w =>
    .entry [("by", string "ann")] [] "read" (.item [] [] .here)
  obtain ⟨hlaws, hwidths, -, -⟩ := equal_equivalence
  have hequal : (note (int32 5)).equal (note (int64 5)) = true :=
    (hwidths 5 5 _ _ (hdiffer _ _) hnarrow).mpr (by decide)
  refine ⟨hnarrow, hwide, hdiffer _ _, hequal,
    hlaws.symm (x := ⟨_, hnarrow⟩) (y := ⟨_, hwide⟩) hequal, ?_⟩
  rw [Bool.eq_false_iff]
  exact fun h => absurd ((hwidths 5 6 _ _ (hdiffer _ _) hnarrow).mp h) (by decide)

end Value

end DocQuery
