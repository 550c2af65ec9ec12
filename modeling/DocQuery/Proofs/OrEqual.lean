import DocQuery.Proofs.Equality
import DocQuery.Proofs.FilterMeaning
import DocQuery.Proofs.ValueOrder
import DocQuery.Runtime.Regex.Engine

/-!
# Order or equality

A filter of order that admits equal values asks whether two values compare as greater or as level.
It does not ask whether they are equal, and the main theorem, `Filter.matches_orEqual_iff`, says
where this makes a difference to the order or the equality.

Against a scalar there are two differences. Nothing compares with an absent value, which counts as
null for the filter of equality alone; and binary values compare by their bytes, so that a twin of
another subtype is level without being equal. Two fields are compared in the order of all values,
in which all values of one rank are level that do not compare: documents, arrays, and the kinds of
atoms that have no order (`Value.Tied`). An absent value is read as null there on both sides.

So level values are the equal ones and the tied ones (`Value.order_eq_eq_iff`). What has to be shown
for this is that values of one rank compare if both kinds have an order, which for an integer and a
double needs that every integer has a nearest double (`Double.isNaN_ofInt`).
-/

namespace DocQuery

/-! ### Doubles of integers -/

namespace Double

/-- The bits of the double nearest to a number of 64 bits are below those of infinity. -/
private theorem bitsOfNat_lt {n : Nat} (h : n < UInt64.size) : bitsOfNat n < infiniteMagnitude := by
  by_cases hn : n = 0
  · subst hn
    decide
  have hlog : n.log2 < 64 := (Nat.log2_lt hn).mpr h
  have hbelow : n < 2 ^ (n.log2 + 1) := Nat.lt_log2_self
  have hleading : leadingBit = 0x10000000000000 := rfl
  have hinfinite : infiniteMagnitude = 0x7FF0000000000000 := rfl
  rw [bitsOfNat, if_neg hn]
  dsimp only
  by_cases he : n.log2 ≤ 52
  · have hscaled : n * Nat.pow 2 (52 - n.log2) < 2 ^ 53 := by
      calc n * 2 ^ (52 - n.log2) < 2 ^ (n.log2 + 1) * 2 ^ (52 - n.log2) :=
            Nat.mul_lt_mul_of_pos_right hbelow (Nat.two_pow_pos _)
        _ = 2 ^ 53 := by rw [← Nat.pow_add]; congr 1; omega
    rw [if_pos he, hleading]
    omega
  · have hscaled : n / Nat.pow 2 (n.log2 - 52) < 2 ^ 53 := by
      refine Nat.div_lt_of_lt_mul ?_
      calc n < 2 ^ (n.log2 + 1) := hbelow
        _ = 2 ^ (n.log2 - 52) * 2 ^ 53 := by rw [← Nat.pow_add]; congr 1; omega
    rw [if_neg he, hleading]
    split <;> omega

/-- An integer of 64 bits has a nearest double. -/
theorem isNaN_ofInt {n : Int} (h : n.natAbs < UInt64.size) : (ofInt n).isNaN = false := by
  have hbits := bitsOfNat_lt h
  have hmagnitude : (ofInt n).magnitude = bitsOfNat n.natAbs := by
    simp only [infiniteMagnitude] at hbits
    simp only [magnitude, ofInt, signBit]
    rw [UInt64.toNat_ofNat']
    split <;> omega
  rw [isNaN, hmagnitude]
  exact decide_eq_false (Nat.not_lt.mpr (Nat.le_of_lt hbits))

end Double

/-! ### Level values -/

namespace Atom

/-- Whether two binary values differ in nothing but their subtypes. -/
def isTwin : Atom → Atom → Bool
  | .binary s x, .binary t y => s != t && x == y
  | _, _ => false

/-- Whether an atom is of a kind that has an order, and no double that is no number. -/
def isOrdered : Atom → Bool
  | .null | .bool _ | .int32 _ | .int64 _ | .string _ | .binary _ _ | .dateTime _
  | .objectId _ => true
  | .double d => !d.isNaN
  | _ => false

theorem compareText_eq_eq_iff {xs ys : List Char} : compareText xs ys = .eq ↔ xs = ys := by
  induction xs generalizing ys with
  | nil => cases ys <;> simp [compareText]
  | cons x xs ih =>
    cases ys with
    | nil => simp [compareText]
    | cons y ys =>
      rw [compareText, Ordering.then_eq_eq, Nat.compare_eq_eq, ih, List.cons.injEq, Char.toNat_inj]

theorem compareBytes_eq_eq_iff {xs ys : List UInt8} : compareBytes xs ys = .eq ↔ xs = ys := by
  induction xs generalizing ys with
  | nil => cases ys <;> simp [compareBytes]
  | cons x xs ih =>
    cases ys with
    | nil => simp [compareBytes]
    | cons y ys =>
      rw [compareBytes, Ordering.then_eq_eq, Nat.compare_eq_eq, ih, List.cons.injEq,
        UInt8.toNat_inj]

theorem isTwin_iff {a b : Atom} :
    a.isTwin b = true ↔ ∃ s t x, a = .binary s x ∧ b = .binary t x ∧ s ≠ t := by
  constructor
  · intro h
    unfold isTwin at h
    split at h
    · next s x t y =>
      obtain ⟨hne, heq⟩ := Bool.and_eq_true_iff.mp h
      exact ⟨s, t, x, rfl, by rw [eq_of_beq heq], bne_iff_ne.mp hne⟩
    · cases h
  · rintro ⟨s, t, x, rfl, rfl, hne⟩
    simp [isTwin, hne]

/-- Atoms that do not compare as numbers are equal only if they are the same, and no doubles. -/
private theorem eq_of_equal {a b : Atom} (hnumeric : a.numericOrder? b = none)
    (h : a.equal b = true) :
    a = b ∧ ∀ x, a ≠ .double x := by
  rw [equal, hnumeric] at h
  change a.same b = true at h
  unfold same at h
  split at h
  · next x y =>
    have hcompare : x.compare? y = none := hnumeric
    rw [Double.numEq, hcompare] at h
    cases h
  · next hdoubles =>
    refine ⟨eq_of_beq h, ?_⟩
    rintro x rfl
    exact hdoubles x x rfl (eq_of_beq h).symm

/-- Among atoms of kinds that have an order, level are equal ones and twins. -/
theorem compare?_eq_some_eq_iff {a b : Atom} (hb : b.isOrdered = true ∨ ∃ x, b = .double x) :
    a.compare? b = some .eq ↔ a.equal b = true ∨ a.isTwin b = true := by
  rcases hnumeric : a.numericOrder? b with _ | o
  · unfold compare?
    simp only [hnumeric]
    split
    · exact iff_of_true rfl (.inl rfl)
    · next s t =>
      have hequal : (string s).equal (string t) = (string s == string t) := rfl
      simp [hequal, compareText_eq_eq_iff, String.toList_inj, isTwin]
    · next x y => cases x <;> cases y <;> decide
    · next s t =>
      have hequal : (dateTime s).equal (dateTime t) = (dateTime s == dateTime t) := rfl
      simp [hequal, Int64.toInt_inj, isTwin]
    · next x y =>
      have hequal : (objectId x).equal (objectId y) = (objectId x == objectId y) := rfl
      have hbytes : x.bytes = y.bytes ↔ x = y := by
        cases x
        cases y
        simp
      simp [hequal, compareBytes_eq_eq_iff, hbytes, isTwin]
    · next s x t y =>
      have hequal : (binary s x).equal (binary t y) = (binary s x == binary t y) := rfl
      simp [hequal, compareBytes_eq_eq_iff, isTwin]
      grind
    · next hnull hstring hbool hdateTime hobjectId hbinary =>
      -- Of the other kinds with an order, the numbers, none is equal without comparing as such.
      refine iff_of_false nofun ?_
      rintro (hequal | htwin)
      · obtain ⟨rfl, hdouble⟩ := eq_of_equal hnumeric hequal
        cases a with
        | null => exact hnull rfl rfl
        | string s => exact hstring s s rfl rfl
        | bool x => exact hbool x x rfl rfl
        | dateTime s => exact hdateTime s s rfl rfl
        | objectId x => exact hobjectId x x rfl rfl
        | binary s x => exact hbinary s x s x rfl rfl
        | double x => exact hdouble x rfl
        | int32 _ | int64 _ => cases hnumeric
        | _ => rcases hb with hb | ⟨x, hb⟩ <;> cases hb
      · obtain ⟨s, t, x, rfl, rfl, _⟩ := isTwin_iff.mp htwin
        exact hbinary s x t x rfl rfl
  · have htwin : a.isTwin b = false := by
      refine Bool.eq_false_iff.mpr fun htwin => ?_
      obtain ⟨s, t, x, rfl, rfl, _⟩ := isTwin_iff.mp htwin
      cases hnumeric
    simp [compare?, equal, hnumeric, htwin]

/-- What has no order does not compare as a number. -/
private theorem numericOrder?_eq_none {a : Atom} (h : a.isOrdered = false) (b : Atom) :
    a.numericOrder? b = none := by
  cases a with
  | double x =>
    have hnan : x.isNaN = true := by simpa [isOrdered] using h
    have hx : (double x).double? = some x := rfl
    rcases hb : b.double? with _ | y
    · simp only [numericOrder?, int?, hx, hb]
    · simp only [numericOrder?, int?, hx, hb]
      exact Double.compare?_eq_none_iff.mpr (.inl hnan)
  | null | bool _ | int32 _ | int64 _ | string _ | binary _ _ | dateTime _ | objectId _ => cases h
  | _ => rfl

/-- What has no order compares with nothing. -/
private theorem compare?_eq_none {a b : Atom} (h : a.isOrdered = false ∨ b.isOrdered = false) :
    a.compare? b = none := by
  have hnumeric : a.numericOrder? b = none := by
    rcases h with ha | hb
    · exact numericOrder?_eq_none ha b
    · rw [numericOrder?_swap, numericOrder?_eq_none hb]
      rfl
  unfold compare?
  simp only [hnumeric]
  split <;> first | rfl | rcases h with h | h <;> cases h

/-- Ordered numbers have a nearest double. -/
private theorem exists_double? {a : Atom} (h : a.isOrdered = true) (hrank : a.rank = 2) :
    ∃ x, a.double? = some x ∧ x.isNaN = false := by
  have hsize : UInt64.size = 0x10000000000000000 := rfl
  cases a with
  | int32 n =>
    have hlower := Int32.le_toInt n
    have hupper := Int32.toInt_lt n
    exact ⟨_, rfl, Double.isNaN_ofInt (by omega)⟩
  | int64 n =>
    have hlower := Int64.le_toInt n
    have hupper := Int64.toInt_lt n
    exact ⟨_, rfl, Double.isNaN_ofInt (by omega)⟩
  | double x => exact ⟨x, rfl, by simpa [isOrdered] using h⟩
  | _ => simp [rank] at hrank

/-- Atoms of one rank that have an order compare. -/
private theorem exists_compare? {a b : Atom} (ha : a.isOrdered = true) (hb : b.isOrdered = true)
    (h : a.rank = b.rank) : ∃ o, a.compare? b = some o := by
  by_cases hrank : a.rank = 2
  · obtain ⟨x, hx, hxnan⟩ := exists_double? ha hrank
    obtain ⟨y, hy, hynan⟩ := exists_double? hb (h ▸ hrank)
    have hcompare : x.compare? y ≠ none := by
      rw [ne_eq, Double.compare?_eq_none_iff, hxnan, hynan]
      decide
    have hnumeric : ∃ o, a.numericOrder? b = some o := by
      unfold numericOrder?
      split
      · exact ⟨_, rfl⟩
      · rw [hx, hy]
        exact Option.ne_none_iff_exists'.mp hcompare
    obtain ⟨o, ho⟩ := hnumeric
    exact ⟨o, by simp only [compare?, ho]⟩
  · cases a with
    | null =>
      cases b with
      | null => exact ⟨_, rfl⟩
      | undefined => cases hb
      | _ => cases h
    | bool _ =>
      cases b with
      | bool _ => exact ⟨_, rfl⟩
      | _ => cases h
    | string _ =>
      cases b with
      | string _ => exact ⟨_, rfl⟩
      | symbol _ => cases hb
      | _ => cases h
    | binary _ _ =>
      cases b with
      | binary _ _ => exact ⟨_, rfl⟩
      | _ => cases h
    | dateTime _ =>
      cases b with
      | dateTime _ => exact ⟨_, rfl⟩
      | _ => cases h
    | objectId _ =>
      cases b with
      | objectId _ => exact ⟨_, rfl⟩
      | _ => cases h
    | int32 _ | int64 _ | double _ => exact absurd rfl hrank
    | _ => cases ha

/-- Only numbers compare as such. -/
private theorem rank_of_numericOrder? {a b : Atom} {o : Ordering} (h : a.numericOrder? b = some o) :
    a.rank = b.rank := by
  have hint : ∀ (c : Atom) {n : Int}, c.int? = some n → c.rank = 2 := by
    intro c n hc
    cases c <;> first | rfl | cases hc
  have hdouble : ∀ (c : Atom) {x : Double}, c.double? = some x → c.rank = 2 := by
    intro c x hc
    cases c <;> first | rfl | cases hc
  unfold numericOrder? at h
  split at h
  · next m n ha hb => rw [hint a ha, hint b hb]
  · split at h
    · next x y ha hb => rw [hdouble a ha, hdouble b hb]
    · cases h

/-- Equal atoms have one rank. -/
private theorem rank_of_equal {a b : Atom} (h : a.equal b = true) : a.rank = b.rank := by
  rcases hnumeric : a.numericOrder? b with _ | o
  · rw [(eq_of_equal hnumeric h).1]
  · exact rank_of_numericOrder? hnumeric

end Atom

namespace Value

/-- Whether two values are binary and differ in nothing but their subtypes. -/
def isTwin : Value → Value → Bool
  | .atom a, .atom b => a.isTwin b
  | _, _ => false

/-- Whether a value is of a kind that has an order, and no double that is no number. -/
def isOrdered : Value → Bool
  | .atom a => a.isOrdered
  | _ => false

/-- Two values that are level without being equal: of one rank, and twins or of a kind without an
order. -/
structure Tied (v w : Value) : Prop where
  rank_eq : v.rank = w.rank
  unequal : v.equal w = false
  unordered : v.isOrdered = false ∨ w.isOrdered = false ∨ v.isTwin w = true

private theorem compare?_eq_none {v w : Value} (h : v.isOrdered = false ∨ w.isOrdered = false) :
    v.compare? w = none := by
  rcases v with a | _ | _ <;> rcases w with b | _ | _
  case atom.atom => exact Atom.compare?_eq_none h
  all_goals rfl

/-- Equal values have one rank. -/
private theorem rank_of_equal {v w : Value} (h : v.equal w = true) : v.rank = w.rank := by
  rcases v with a | _ | _ <;> rcases w with b | _ | _
  case atom.atom => exact Atom.rank_of_equal h
  case array.array => rfl
  case document.document => rfl
  all_goals simp [equal] at h

private theorem exists_atom_of_isOrdered {v : Value} (h : v.isOrdered = true) :
    ∃ a : Atom, v = .atom a ∧ a.isOrdered = true := by
  rcases v with a | _ | _
  · exact ⟨a, rfl, h⟩
  · cases h
  · cases h

/-- Values of one rank that have an order are level where they are equal, or twins. -/
theorem getD_compare?_eq_eq_iff {v w : Value} (hv : v.isOrdered = true) (hw : w.isOrdered = true)
    (hrank : v.rank = w.rank) :
    (v.compare? w).getD .eq = .eq ↔ v.equal w = true ∨ v.isTwin w = true := by
  obtain ⟨a, rfl, ha⟩ := exists_atom_of_isOrdered hv
  obtain ⟨b, rfl, hb⟩ := exists_atom_of_isOrdered hw
  obtain ⟨o, ho⟩ := Atom.exists_compare? ha hb hrank
  have hlevel : a.compare? b = some .eq ↔ (a.compare? b).getD .eq = .eq := by
    rw [ho]
    exact Option.some_inj
  exact hlevel.symm.trans (Atom.compare?_eq_some_eq_iff (.inl hb))

/-- Values are level where they are equal or tied. -/
theorem order_eq_eq_iff {v w : Value} :
    order (some v) (some w) = .eq ↔ v.equal w = true ∨ v.Tied w := by
  have horder : order (some v) (some w) = .eq ↔
      v.rank = w.rank ∧ (v.compare? w).getD .eq = .eq := by
    rw [order, Ordering.then_eq_eq, Nat.compare_eq_eq]
    rfl
  rw [horder]
  by_cases hordered : v.isOrdered = true ∧ w.isOrdered = true
  · obtain ⟨hv, hw⟩ := hordered
    constructor
    · rintro ⟨hrank, hlevel⟩
      by_cases hequal : v.equal w = true
      · exact .inl hequal
      · have htwin := ((getD_compare?_eq_eq_iff hv hw hrank).mp hlevel).resolve_left hequal
        exact .inr ⟨hrank, Bool.eq_false_iff.mpr hequal, .inr (.inr htwin)⟩
    · intro h
      have hrank : v.rank = w.rank := h.elim rank_of_equal Tied.rank_eq
      refine ⟨hrank, (getD_compare?_eq_eq_iff hv hw hrank).mpr (h.imp_right fun htied => ?_)⟩
      rcases htied.unordered with hunordered | hunordered | htwin
      · exact absurd hv (Bool.eq_false_iff.mp hunordered)
      · exact absurd hw (Bool.eq_false_iff.mp hunordered)
      · exact htwin
  · have hunordered : v.isOrdered = false ∨ w.isOrdered = false := by
      rw [← Bool.not_eq_true, ← Bool.not_eq_true]
      exact Decidable.not_and_iff_not_or_not.mp hordered
    rw [compare?_eq_none hunordered]
    constructor
    · rintro ⟨hrank, _⟩
      by_cases hequal : v.equal w = true
      · exact .inl hequal
      · exact .inr ⟨hrank, Bool.eq_false_iff.mpr hequal, hunordered.imp_right .inl⟩
    · exact fun h => ⟨h.elim rank_of_equal Tied.rank_eq, rfl⟩

end Value

/-! ### Bounds -/

/-- Scalars are of kinds that have an order. -/
private theorem Scalar.isOrdered_encode (s : Scalar) :
    s.encode.isOrdered = true ∨ ∃ x, s.encode = .double x := by
  cases s <;> first | exact .inl rfl | exact .inr ⟨_, rfl⟩

namespace Value

/-- Level with a scalar is what is equal to it, and its twins. -/
theorem compare?_encode_eq_some_eq_iff {v : Value} {s : Scalar} :
    v.compare? (.atom s.encode) = some .eq ↔
      v.equal (.atom s.encode) = true ∨ v.isTwin (.atom s.encode) = true := by
  rcases v with a | _ | _
  · exact Atom.compare?_eq_some_eq_iff s.isOrdered_encode
  · simp [compare?, equal, isTwin]
  · simp [compare?, equal, isTwin]

/-- A value has one of two properties as a subject if it has one or the other. -/
private theorem someSubject_or (p q : Value → Bool) (value : Option Value) :
    someSubject (fun v => p v || q v) value = (someSubject p value || someSubject q value) := by
  rw [← any_subjects, ← any_subjects, ← any_subjects, Bool.eq_iff_iff]
  simp only [List.any_eq_true, Bool.or_eq_true, and_or_left, exists_or]

end Value

/-! ### Filters of order -/

namespace FieldTest

/-- What compares as greater or level, or as less or level, compares as one of the two. -/
private theorem admits_orEqual (inverse : Bool) (o : Ordering) :
    admits inverse true o = (admits inverse false o || o == .eq) := by
  cases inverse <;> cases o <;> rfl

/-- A value satisfies an order or equality to a scalar if it satisfies the order, or the equality
unless it is absent, or if a twin of the scalar is among its subjects. -/
private theorem holdsFor_orEqual [RegexEngine] (inverse : Bool) (value : Option Value)
    (s : Scalar) :
    (order inverse true).holdsFor value (.atom s.encode) = .ok true ↔
      (order inverse false).holdsFor value (.atom s.encode) = .ok true ∨
      ((equality false).holdsFor value (.atom s.encode) = .ok true ∧ value ≠ none) ∨
      Value.someSubject (·.isTwin (.atom s.encode)) value = true := by
  have hsplit : (fun v : Value => (v.compare? (.atom s.encode)).any (admits inverse true)) =
      fun v => (v.compare? (.atom s.encode)).any (admits inverse false) ||
        (v.equal (.atom s.encode) || v.isTwin (.atom s.encode)) := by
    funext v
    have hlevel : (v.compare? (.atom s.encode)).any (· == .eq) =
        (v.equal (.atom s.encode) || v.isTwin (.atom s.encode)) := by
      rw [Bool.eq_iff_iff, Bool.or_eq_true, ← Value.compare?_encode_eq_some_eq_iff]
      rcases v.compare? (.atom s.encode) with _ | o
      · exact iff_of_false nofun nofun
      · exact beq_iff_eq.trans Option.some_inj.symm
    rw [← hlevel]
    rcases v.compare? (.atom s.encode) with _ | o
    · rfl
    · exact admits_orEqual inverse o
  have hequal : Value.someSubject (·.equal (.atom s.encode)) value = true ↔
      Value.isEqualTo (.atom s.encode) value = true ∧ value ≠ none := by
    rcases value with _ | v
    · exact iff_of_false nofun fun h => h.2 rfl
    · exact (and_iff_left (Option.some_ne_none v)).symm
  simp only [holdsFor, hsplit, Value.someSubject_or, Bool.or_eq_true, Except.ok.injEq,
    Bool.false_xor, hequal]

/-- Two values of a document satisfy an order or equality if they satisfy the order, or are equal,
or tied. -/
private theorem holdsBetween_orEqual (inverse : Bool) (v w : Value) :
    (order inverse true).holdsBetween v w = true ↔
      (order inverse false).holdsBetween v w = true ∨
      (equality false).holdsBetween v w = true ∨ v.Tied w := by
  rw [holdsBetween, holdsBetween, holdsBetween, admits_orEqual, Bool.or_eq_true, beq_iff_eq,
    Value.order_eq_eq_iff, Bool.false_xor]

end FieldTest

namespace Filter

/-- Whether a document satisfies a filter: it compiles, and its query document is satisfied. -/
def Matches [RegexEngine] (mode : Addressing) (d : Document) (f : Filter) : Prop :=
  ∃ query, compile mode f = .ok query ∧ d.satisfies query = .ok true

/-- A document satisfies a comparison with a scalar if its value at the field does, which no path
with the sign of operators leads to. -/
theorem matches_value_iff [RegexEngine] {mode : Addressing} {d : Document} {field : Field}
    {test : FieldTest} {name : String} (hname : test.fieldOperator = .ok name) {s : Scalar} :
    Matches mode d (.value field test (.bind s)) ↔
      ∃ path, field.resolve mode = .ok path ∧ isOperator path = false ∧
        test.holdsFor (d.read? path) (.atom s.encode) = .ok true := by
  have hoperator : test.operator = .ok name := by
    cases test with
    | equality _ | order _ _ => exact hname
    | _ => cases hname
  have hcompile : ∀ path, compileValue path test (.bind s) =
      .ok [(path, .document [(name, .atom s.encode)])] := by
    intro path
    rw [compileValue_eq, hoperator]
    · rfl
    · rintro inverse location rfl
      cases hname
  obtain ⟨hsign, c, hc, _⟩ := FieldTest.fieldOperator_spec hname
  constructor
  · rintro ⟨query, hquery, h⟩
    obtain ⟨path, hpath, hquery⟩ := bind_eq_ok_iff.mp hquery
    rcases hplain : isOperator path with _ | _
    · rw [satisfies_compileValue hplain hquery] at h
      exact ⟨path, hpath, hplain, h⟩
    · obtain rfl := Except.ok.inj ((hcompile path).symm.trans hquery)
      exact absurd h (Document.satisfies_operator_ne hplain hsign hc s.encode d)
  · rintro ⟨path, hpath, hplain, h⟩
    refine ⟨_, bind_eq_ok_iff.mpr ⟨path, hpath, hcompile path⟩, ?_⟩
    rw [satisfies_compileValue hplain (hcompile path)]
    exact h

end Filter

/-- The value that a comparison of fields sees at a field. -/
def Document.Shows (d : Document) (mode : Addressing) (f : Field) (v : Value) : Prop :=
  ∃ path, f.resolve mode = .ok path ∧ d.evaluateText ("$" ++ path) = .ok v

namespace Filter

/-- A document satisfies a comparison of two fields if the values that it shows at them do. -/
theorem matches_fields_iff [RegexEngine] {mode : Addressing} {d : Document} {lhs rhs : Field}
    {test : FieldTest} {name : String} (hname : test.fieldOperator = .ok name) :
    Matches mode d (.fields lhs test rhs) ↔
      ∃ v w, d.Shows mode lhs v ∧ d.Shows mode rhs w ∧ test.holdsBetween v w = true := by
  obtain ⟨hsign, c, hc, hholds⟩ := FieldTest.fieldOperator_spec hname
  constructor
  · rintro ⟨query, hquery, h⟩
    obtain ⟨operator, hoperator, hquery⟩ := bind_eq_ok_iff.mp hquery
    obtain rfl := Except.ok.inj (hname.symm.trans hoperator)
    obtain ⟨l, hl, hquery⟩ := bind_eq_ok_iff.mp hquery
    obtain ⟨r, hr, hquery⟩ := bind_eq_ok_iff.mp hquery
    obtain rfl := Except.ok.inj hquery
    rw [satisfies_expression] at h
    rcases hv : d.evaluateText ("$" ++ l) with e | v
    · simp only [Value.evaluate, hsign, if_true, hc, Value.evaluateItems, hv] at h
      cases h
    rcases hw : d.evaluateText ("$" ++ r) with e | w
    · simp only [Value.evaluate, hsign, if_true, hc, Value.evaluateItems, hv, hw] at h
      cases h
    rw [Value.evaluate_comparison hsign hc hv hw, hholds] at h
    exact ⟨v, w, ⟨l, hl, hv⟩, ⟨r, hr, hw⟩, Except.ok.inj h⟩
  · rintro ⟨v, w, ⟨l, hl, hv⟩, ⟨r, hr, hw⟩, h⟩
    refine ⟨[("$expr", .document [(name, .array [.string ("$" ++ l), .string ("$" ++ r)])])], ?_,
      ?_⟩
    · rw [compile, compileFields, hname, hl, hr]
      rfl
    · rw [satisfies_expression, Value.evaluate_comparison hsign hc hv hw, hholds, h]
      rfl

/-- **Or-equal is order or equality, up to what is absent and what is tied.** A document satisfies
an order or equality to a scalar exactly if it satisfies the order, or the equality, unless for
having nothing at the field, or if it has a twin of the scalar there. It satisfies an order or
equality of two fields exactly if it satisfies the order, or the equality, or if it shows tied
values at the fields. -/
theorem matches_orEqual_iff [RegexEngine] (mode : Addressing) (d : Document) (inverse : Bool) :
    (∀ (field : Field) (s : Scalar),
      Matches mode d (.value field (.order inverse true) (.bind s)) ↔
        Matches mode d (.value field (.order inverse false) (.bind s)) ∨
        (Matches mode d (.eq field s) ∧ d.at? mode field ≠ none) ∨
        (field.IsPlain mode ∧
          Value.someSubject (·.isTwin (.atom s.encode)) (d.at? mode field) = true)) ∧
    ∀ lhs rhs : Field,
      Matches mode d (.fields lhs (.order inverse true) rhs) ↔
        Matches mode d (.fields lhs (.order inverse false) rhs) ∨
        Matches mode d (.fields lhs (.equality false) rhs) ∨
        ∃ v w, d.Shows mode lhs v ∧ d.Shows mode rhs w ∧ v.Tied w := by
  have hname : ∀ orEqual, ∃ name, (FieldTest.order inverse orEqual).fieldOperator = .ok name := by
    intro orEqual
    cases inverse <;> cases orEqual <;> exact ⟨_, rfl⟩
  obtain ⟨orEqual, horEqual⟩ := hname true
  obtain ⟨strict, hstrict⟩ := hname false
  have hequality : (FieldTest.equality false).fieldOperator = .ok "$eq" := rfl
  constructor
  · intro field s
    rw [Filter.eq, matches_value_iff horEqual, matches_value_iff hstrict,
      matches_value_iff hequality]
    simp only [FieldTest.holdsFor_orEqual]
    rcases hpath : field.resolve mode with e | path
    · -- At a field that does not resolve nothing is satisfied.
      have hnone : d.at? mode field = none := by rw [Document.at?, hpath]
      simp [hnone, Value.someSubject]
    · have hread : d.at? mode field = d.read? path := by rw [Document.at?, hpath]
      have hplain : field.IsPlain mode ↔ isOperator path = false := by
        simp [Field.IsPlain, hpath]
      simp only [Except.ok.injEq, exists_eq_left', hread, hplain]
      rw [and_or_left, and_or_left, and_assoc]
  · intro lhs rhs
    rw [matches_fields_iff horEqual, matches_fields_iff hstrict, matches_fields_iff hequality]
    simp only [FieldTest.holdsBetween_orEqual, and_or_left, exists_or]

attribute [local instance] Runtime.engine

/-- A document without a day has the day null, but none from null on; and two different documents
are neither equal nor in order, but in order or equal. -/
theorem matches_orEqual_ne :
    let day : Field := .single (.name "day") "notes"
    let low : Field := .single (.name "low") "notes"
    let high : Field := .single (.name "high") "notes"
    let ranged : Document :=
      [("low", .document [("x", .int32 1)]), ("high", .document [("x", .int32 2)])]
    (Matches .plain [] (.eq day .null) ∧ ¬ Matches .plain [] (.gte day .null)) ∧
    Matches .plain ranged (.fields low (.order false true) high) ∧
    ¬ Matches .plain ranged (.fields low (.order false false) high) ∧
    ¬ Matches .plain ranged (.fields low (.equality false) high) := by
  refine ⟨⟨⟨_, rfl, rfl⟩, ?_⟩, ⟨_, rfl, rfl⟩, ?_, ?_⟩
  all_goals
    rintro ⟨query, hquery, h⟩
    obtain rfl := Except.ok.inj hquery
    cases h

end Filter

end DocQuery
