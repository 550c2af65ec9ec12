import DocQuery.Matching
import DocQuery.Proofs.Equality
import DocQuery.Proofs.ValueOrder
import DocQuery.Proofs.ValueParts
import DocQuery.Runtime.Regex.Engine

/-!
# The laws of the order of values

A sort, a least or greatest value and a comparison of two fields all go by `Value.order`. Swapping
two values swaps their order, whatever they are (`Value.order_swap`). Transitive the order is not:
a symbol has the rank of a text but compares with none, so it is level with every text, and two
texts can stand around it in the wrong order (`Value.SymbolBetween`).

Without doubles nothing else goes wrong. `Value.order_intransitive_iff` says that three values
violate transitivity exactly if they are two texts around a symbol: all other values have places
(`Value.order_eq_byPlace`), and a symbol decides nothing but ranks (`Value.order_symbol`).
-/

namespace DocQuery

/-! ### Swapping -/

namespace Atom

/-- Texts compare the other way round when they are swapped. -/
private theorem compareText_swap (xs ys : List Char) :
    compareText ys xs = (compareText xs ys).swap := by
  rw [compareText_eq, compareText_eq]
  exact Std.OrientedCmp.eq_swap

/-- Bytes compare the other way round when they are swapped. -/
private theorem compareBytes_swap (xs ys : List UInt8) :
    compareBytes ys xs = (compareBytes xs ys).swap := by
  rw [compareBytes_eq, compareBytes_eq]
  exact Std.OrientedCmp.eq_swap

/-- Two atoms compare the other way round when they are swapped. -/
private theorem compare?_swap (a b : Atom) : b.compare? a = (a.compare? b).map Ordering.swap := by
  unfold compare?
  rw [numericOrder?_swap a b]
  rcases a.numericOrder? b with _ | o
  · -- What is no number compares within its own kind.
    cases a with
    | string s =>
      cases b with
      | string t => exact congrArg some (compareText_swap s.toList t.toList)
      | _ => rfl
    | bool x =>
      cases b with
      | bool y => exact congrArg some Std.OrientedCmp.eq_swap
      | _ => rfl
    | dateTime m =>
      cases b with
      | dateTime n => exact congrArg some Std.OrientedCmp.eq_swap
      | _ => rfl
    | objectId x =>
      cases b with
      | objectId y => exact congrArg some (compareBytes_swap x.bytes y.bytes)
      | _ => rfl
    | binary _ x =>
      cases b with
      | binary _ y => exact congrArg some (compareBytes_swap x y)
      | _ => rfl
    | _ => cases b <;> rfl
  · rfl

/-- A symbol compares with nothing. -/
private theorem compare?_symbol (s : String) (b : Atom) : (Atom.symbol s).compare? b = none := by
  cases b <;> rfl

end Atom

namespace Value

/-- **Swapped values** have the swapped order. -/
theorem order_swap (v w : Option Value) : order w v = (order v w).swap := by
  have hrank : compare (rank? w) (rank? v) = (compare (rank? v) (rank? w)).swap :=
    Std.OrientedCmp.eq_swap
  change (compare (rank? w) (rank? v)).then _ = ((compare (rank? v) (rank? w)).then _).swap
  rw [Ordering.swap_then, hrank]
  congr 1
  rcases v with _ | (a | xs | d) <;> rcases w with _ | (b | ys | e)
  case some.atom.some.atom =>
    change (b.compare? a).getD .eq = ((a.compare? b).getD .eq).swap
    rw [Atom.compare?_swap a b]
    rcases a.compare? b with _ | o <;> rfl
  all_goals rfl

/-- Values that are level stay level when they are swapped. -/
private theorem order_eq_eq_symm {v w : Option Value} (h : order v w = .eq) : order w v = .eq := by
  rw [order_swap v w, h]
  rfl

/-! ### Ranks -/

/-- What is not greater does not rank higher. -/
private theorem rank?_le_of_order {v w : Option Value} (h : order v w ≠ .gt) :
    rank? v ≤ rank? w := by
  refine Nat.le_of_not_lt fun hlt => h ?_
  change (compare (rank? v) (rank? w)).then _ = _
  rw [Nat.compare_eq_gt.mpr hlt]
  rfl

/-- Nothing but its rank orders a symbol. -/
theorem order_symbol (s : String) (w : Option Value) :
    order (some (.atom (.symbol s))) w = compare 3 (rank? w) := by
  rcases w with _ | (b | ys | e)
  case some.atom =>
    change (compare 3 b.rank).then ((Atom.compare? (.symbol s) b).getD .eq) = _
    rw [Atom.compare?_symbol]
    exact Ordering.then_eq
  all_goals rfl

/-- A symbol is level with all that has its rank. -/
theorem order_symbol_eq {s : String} {w : Option Value} (h : rank? w = 3) :
    order (some (.atom (.symbol s))) w = .eq := by
  rw [order_symbol, h]
  rfl

/-- What has no place and is no double is a symbol. -/
private theorem isPlaced_or_symbol {v : Option Value} (hv : v.any isDouble = false) :
    IsPlaced v ∨ ∃ s, v = some (.atom (.symbol s)) := by
  rcases v with _ | (a | xs | d)
  case some.atom =>
    cases a with
    | double x => cases hv
    | symbol s => exact .inr ⟨s, rfl⟩
    | _ => exact .inl trivial
  all_goals exact .inl trivial

/-- What ranks with the texts and has a place is a text. -/
private theorem exists_string_of_rank? {v : Option Value} (hv : IsPlaced v) (h : rank? v = 3) :
    ∃ s, v = some (.string s) := by
  rcases v with _ | (a | xs | d)
  case some.atom =>
    cases a with
    | string s => exact ⟨s, rfl⟩
    | symbol s => exact hv.elim
    | _ => cases h
  all_goals cases h

/-! ### Transitivity -/

/-- A symbol between two texts, of which the one before it is the greater. -/
inductive SymbolBetween : Option Value → Option Value → Option Value → Prop
  | intro {s t : String} (symbol : String) (h : Atom.compareText s.toList t.toList = .gt) :
    SymbolBetween (some (.string s)) (some (.atom (.symbol symbol))) (some (.string t))

variable {u v w : Option Value}

/-- A symbol is level with the texts around it. -/
theorem SymbolBetween.order_eq (h : SymbolBetween u v w) :
    order u v = .eq ∧ order v w = .eq ∧ order u w = .gt := by
  obtain ⟨symbol, hgt⟩ := h
  exact ⟨rfl, rfl, hgt⟩

/-- Three values that are not in order, though each of the first two is not greater than the next,
are two texts around a symbol. -/
private theorem symbolBetween_of_order (hu : u.any isDouble = false) (hv : v.any isDouble = false)
    (hw : w.any isDouble = false) (huv : order u v ≠ .gt) (hvw : order v w ≠ .gt)
    (huw : order u w = .gt) : SymbolBetween u v w := by
  -- All three are of one rank, since the last does not rank above the first.
  have hrankuv := rank?_le_of_order huv
  have hrankvw := rank?_le_of_order hvw
  have hrankwu : rank? w ≤ rank? u := by
    refine rank?_le_of_order ?_
    rw [order_swap u w, huw]
    nofun
  -- A symbol at one end would be level with the other end, so the symbol can only be between.
  rcases isPlaced_or_symbol hu with hu | ⟨s, rfl⟩
  · rcases isPlaced_or_symbol hw with hw | ⟨s, rfl⟩
    · rcases isPlaced_or_symbol hv with hv | ⟨s, rfl⟩
      · rw [order_eq_byPlace hu hv] at huv
        rw [order_eq_byPlace hv hw] at hvw
        rw [order_eq_byPlace hu hw] at huw
        have hle : (byPlace u w).isLE = true :=
          Std.TransCmp.isLE_trans (Ordering.isLE_iff_ne_gt.mpr huv)
            (Ordering.isLE_iff_ne_gt.mpr hvw)
        exact absurd huw (Ordering.isLE_iff_ne_gt.mp hle)
      · have hsymbol : rank? (some (.atom (.symbol s))) = 3 := rfl
        obtain ⟨x, rfl⟩ := exists_string_of_rank? hu (by omega)
        obtain ⟨y, rfl⟩ := exists_string_of_rank? hw (by omega)
        exact ⟨s, huw⟩
    · have hsymbol : rank? (some (.atom (.symbol s))) = 3 := rfl
      rw [order_eq_eq_symm (order_symbol_eq (by omega))] at huw
      cases huw
  · have hsymbol : rank? (some (.atom (.symbol s))) = 3 := rfl
    rw [order_symbol_eq (by omega)] at huw
    cases huw

/-- **The order of values without doubles** is a total preorder but for symbols between texts. Two
values that are swapped have the swapped order. Of three values, of which each is not greater than
the next, the first is greater than the last exactly if they are two texts around a symbol, and of
three values, of which each is level with the next, the first is not level with the last exactly if
they are that in one direction or the other. -/
theorem order_intransitive_iff (hu : u.any isDouble = false) (hv : v.any isDouble = false)
    (hw : w.any isDouble = false) :
    order v u = (order u v).swap ∧
      (order u v ≠ .gt ∧ order v w ≠ .gt ∧ order u w = .gt ↔ SymbolBetween u v w) ∧
      (order u v = .eq ∧ order v w = .eq ∧ order u w ≠ .eq ↔
        SymbolBetween u v w ∨ SymbolBetween w v u) := by
  refine ⟨order_swap u v, ⟨?_, ?_⟩, ⟨?_, ?_⟩⟩
  · rintro ⟨huv, hvw, huw⟩
    exact symbolBetween_of_order hu hv hw huv hvw huw
  · intro h
    obtain ⟨huv, hvw, huw⟩ := h.order_eq
    exact ⟨huv ▸ nofun, hvw ▸ nofun, huw⟩
  · rintro ⟨huv, hvw, huw⟩
    have hvu : order v u = .eq := order_eq_eq_symm huv
    have hwv : order w v = .eq := order_eq_eq_symm hvw
    rcases horder : order u w with _ | _ | _
    · have hwu : order w u = .gt := by rw [order_swap u w, horder]; rfl
      exact .inr (symbolBetween_of_order hw hv hu (hwv ▸ nofun) (hvu ▸ nofun) hwu)
    · exact absurd horder huw
    · exact .inl (symbolBetween_of_order hu hv hw (huv ▸ nofun) (hvw ▸ nofun) horder)
  · rintro (h | h)
    · obtain ⟨huv, hvw, huw⟩ := h.order_eq
      exact ⟨huv, hvw, huw ▸ nofun⟩
    · obtain ⟨hwv, hvu, hwu⟩ := h.order_eq
      refine ⟨order_eq_eq_symm hvu, order_eq_eq_symm hwv, fun huw => ?_⟩
      exact absurd ((order_eq_eq_symm huw).symm.trans hwu) nofun

/-- Two texts around a symbol are out of order. Two numbers and a text are not, since there is no
symbol among them. -/
theorem order_intransitive_iff_symbolAndNumbers :
    let b : Option Value := some (.string "b")
    let x : Option Value := some (.atom (.symbol "x"))
    let a : Option Value := some (.string "a")
    (order b x ≠ .gt ∧ order x a ≠ .gt ∧ order b a = .gt) ∧
      ¬(order (some (.int64 3)) (some (.int32 4)) ≠ .gt ∧ order (some (.int32 4)) a ≠ .gt ∧
        order (some (.int64 3)) a = .gt) := by
  intro b x a
  obtain ⟨-, htexts, -⟩ := order_intransitive_iff (u := b) (v := x) (w := a) rfl rfl rfl
  obtain ⟨-, hnumbers, -⟩ :=
    order_intransitive_iff (u := some (.int64 3)) (v := some (.int32 4)) (w := a) rfl rfl rfl
  refine ⟨htexts.mpr ⟨"x", by decide⟩, fun h => ?_⟩
  cases hnumbers.mp h

attribute [local instance] Runtime.engine

/-- **The order of values is not transitive**: a symbol is level with each of two texts, and these
are out of order. So a document satisfies the query that asks for two fields in order, for the
second and a third in order, and for the first and the third out of order. -/
theorem order_around_symbol :
    order (some (.string "b")) (some (.atom (.symbol "x"))) = .eq ∧
      order (some (.atom (.symbol "x"))) (some (.string "a")) = .eq ∧
      order (some (.string "b")) (some (.string "a")) = .gt ∧
      Document.satisfies
        [("p", .string "b"), ("q", .atom (.symbol "x")), ("r", .string "a")]
        [("$expr", .document [("$and", .array [
          .document [("$lte", .array [.string "$p", .string "$q"])],
          .document [("$lte", .array [.string "$q", .string "$r"])],
          .document [("$gt", .array [.string "$p", .string "$r"])]])])] = .ok true :=
  ⟨rfl, rfl, by decide, rfl⟩

end Value

end DocQuery
