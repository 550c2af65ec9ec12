import DocQuery.Proofs.WrittenPaths
import DocQuery.Value.Order

/-!
# Equality of storage

An update writes a document only if it is not already the same in storage, and this equality is not
that of values: keys may come in another order, and the two zeros are equal. `Value.Resembles` says
how far two values can differ and still be the same (`Value.resembles_of_same`), and what stands at
a path of a document has its like at this path of every document that is the same
(`Document.StandsAt.exists_same`).
-/

namespace DocQuery

/-! ### Numbers -/

namespace Double

/-- A double is its sign and its magnitude. -/
private theorem eq_of_magnitude {a b : Double} (hsign : a.isNegative = b.isNegative)
    (hmagnitude : a.magnitude = b.magnitude) : a = b := by
  have ha := a.bits.toNat_lt
  have hb := b.bits.toNat_lt
  rw [isNegative, isNegative, decide_eq_decide] at hsign
  simp only [magnitude, signBit] at hsign hmagnitude
  have hbits : a.bits.toNat = b.bits.toNat := by omega
  obtain ⟨x⟩ := a
  obtain ⟨y⟩ := b
  exact congrArg Double.mk (UInt64.toNat_inj.mp hbits)

/-- The place of a number is its magnitude under its sign. -/
private theorem of_key?_eq_some {d : Double} {x : Int} (h : d.key? = some x) :
    x = d.magnitude ∧ d.isNegative = false ∨ x = -(d.magnitude : Int) ∧ d.isNegative = true := by
  unfold key? at h
  split at h
  · cases h
  · split at h
    · next hnegative => exact Or.inr ⟨(Option.some.inj h).symm, hnegative⟩
    · next hpositive => exact Or.inl ⟨(Option.some.inj h).symm, Bool.not_eq_true _ ▸ hpositive⟩

/-- Equal numbers have one place. -/
private theorem exists_key?_of_numEq {a b : Double} (h : a.numEq b = true) :
    ∃ x, a.key? = some x ∧ b.key? = some x := by
  rw [numEq, compare?] at h
  rcases hx : a.key? with _ | x <;> rcases hy : b.key? with _ | y <;>
    simp only [hx, hy] at h <;> try cases h
  have hcompare : compare x y = .eq := by simpa using h
  exact ⟨x, rfl, by rw [Std.LawfulEqOrd.eq_of_compare hcompare]⟩

/-- Equal numbers are the same double, or both zero. -/
private theorem eq_or_isZero_of_numEq {a b : Double} (h : a.numEq b = true) :
    a = b ∨ a.isZero = true ∧ b.isZero = true := by
  obtain ⟨x, hx, hy⟩ := exists_key?_of_numEq h
  rw [isZero, isZero, beq_iff_eq, beq_iff_eq]
  -- Under different signs one place is that of zero.
  rcases of_key?_eq_some hx with ⟨ha, hna⟩ | ⟨ha, hna⟩ <;>
    rcases of_key?_eq_some hy with ⟨hb, hnb⟩ | ⟨hb, hnb⟩
  · exact Or.inl (eq_of_magnitude (hna.trans hnb.symm) (by omega))
  · exact Or.inr ⟨by omega, by omega⟩
  · exact Or.inr ⟨by omega, by omega⟩
  · exact Or.inl (eq_of_magnitude (hna.trans hnb.symm) (by omega))

end Double

/-! ### Values -/

/-- Values that differ in the order of keys and in the signs of zeros alone. -/
inductive Value.Resembles : Value → Value → Prop
  | refl (v : Value) : Resembles v v
  /-- The two zeros resemble each other. -/
  | zeros {x y : Double} (hx : x.isZero = true) (hy : y.isZero = true) :
    Resembles (.double x) (.double y)
  /-- Arrays do element by element. -/
  | array {xs ys : List Value} (hlength : xs.length = ys.length)
      (hitems : ∀ (i : Nat) (x y : Value), xs[i]? = some x → ys[i]? = some y → Resembles x y) :
    Resembles (.array xs) (.array ys)
  /-- Documents do key by key, in whatever order. -/
  | document {d e : Document} (found : String → Value) (hlength : d.length = e.length)
      (hfound : ∀ key v, (key, v) ∈ d → e.value? key = some (found key))
      (hentries : ∀ key v, (key, v) ∈ d → Resembles v (found key)) :
    Resembles (.document d) (.document e)

/-- Atoms that are the same in storage resemble each other. -/
private theorem Atom.resembles_of_same {a b : Atom} (h : a.same b = true) :
    Value.Resembles (.atom a) (.atom b) := by
  unfold Atom.same at h
  split at h
  · next x y =>
    rcases Double.eq_or_isZero_of_numEq h with rfl | ⟨hx, hy⟩
    · exact .refl _
    · exact .zeros hx hy
  · obtain rfl := eq_of_beq h
    exact .refl _

namespace Value

mutual

/-- **Values that are the same in storage** resemble each other. -/
theorem resembles_of_same : (v w : Value) → v.same w = true → v.Resembles w
  | .atom a, .atom b, h => Atom.resembles_of_same (by simpa only [same] using h)
  | .array xs, .array ys, h => by
    rw [same] at h
    obtain ⟨hlength, hitems⟩ := resembles_of_sameItems xs ys h
    exact .array hlength hitems
  | .document d, .document e, h => by
    rw [same, Bool.and_eq_true, beq_iff_eq] at h
    have hentries := resembles_of_sameEntries d e h.2
    have hfound : ∀ key v, (key, v) ∈ d →
        Document.value? e key = some ((Document.value? e key).getD .null) := by
      intro key v hmem
      obtain ⟨w, hw, -⟩ := hentries key v hmem
      rw [hw]
      rfl
    refine .document (fun key => (Document.value? e key).getD .null) h.1 hfound fun key v hmem => ?_
    obtain ⟨w, hw, hresembles⟩ := hentries key v hmem
    rw [hw]
    exact hresembles
  | .atom _, .array _, h => by simp [same] at h
  | .atom _, .document _, h => by simp [same] at h
  | .array _, .atom _, h => by simp [same] at h
  | .array _, .document _, h => by simp [same] at h
  | .document _, .atom _, h => by simp [same] at h
  | .document _, .array _, h => by simp [same] at h

/-- Arrays that are the same in storage are as long, and resemble each other element by element. -/
theorem resembles_of_sameItems : (xs ys : List Value) → sameItems xs ys = true →
    xs.length = ys.length ∧
      ∀ (i : Nat) (x y : Value), xs[i]? = some x → ys[i]? = some y → x.Resembles y
  | [], [], _ => ⟨rfl, fun _ _ _ h => by cases h⟩
  | [], _ :: _, h => by simp [sameItems] at h
  | _ :: _, [], h => by simp [sameItems] at h
  | x :: xs, y :: ys, h => by
    rw [sameItems, Bool.and_eq_true] at h
    have hfirst := resembles_of_same x y h.1
    obtain ⟨hlength, hrest⟩ := resembles_of_sameItems xs ys h.2
    refine ⟨congrArg (· + 1) hlength, fun i v w hv hw => ?_⟩
    rcases i with _ | i
    · obtain rfl := Option.some.inj hv
      obtain rfl := Option.some.inj hw
      exact hfirst
    · exact hrest i v w hv hw

/-- Every entry of a document has its like in a document that is the same in storage. -/
theorem resembles_of_sameEntries : (d e : List (String × Value)) → sameEntries d e = true →
    ∀ key v, (key, v) ∈ d → ∃ w, Document.value? e key = some w ∧ v.Resembles w
  | [], _, _ => fun _ _ hmem => absurd hmem List.not_mem_nil
  | (k, u) :: d, e, h => by
    rw [sameEntries, Bool.and_eq_true] at h
    have hrest := resembles_of_sameEntries d e h.2
    intro key v hmem
    rcases List.mem_cons.mp hmem with heq | hmem
    · obtain ⟨rfl, rfl⟩ := Prod.mk.inj heq
      rcases hw : Document.value? e key with _ | w
      · simp [hw] at h
      · exact ⟨w, rfl, resembles_of_same v w (by simpa [hw] using h.1)⟩
    · exact hrest key v hmem

end

end Value

/-! ### Documents -/

namespace Document

/-- Documents are the same in storage when they are as long, and what the first holds has its like
in the second. -/
theorem same_of_forall {d e : Document} (hlength : d.length = e.length)
    (h : ∀ entry ∈ d, ∃ w, e.value? entry.1 = some w ∧ entry.2.same w = true) :
    d.same e = true := by
  rw [Document.same, Value.same, Bool.and_eq_true, beq_iff_eq]
  refine ⟨hlength, ?_⟩
  clear hlength
  induction d with
  | nil => rfl
  | cons entry d ih =>
    obtain ⟨⟨w, hw, hsame⟩, hrest⟩ := List.forall_mem_cons.mp h
    rw [Value.sameEntries, hw, ih hrest, Bool.and_true]
    exact hsame

/-- What a document holds under a key has its like there in a document that is the same. -/
theorem exists_value?_of_same {d e : Document} (h : d.same e = true) {key : String} {v : Value}
    (hv : d.value? key = some v) : ∃ w, e.value? key = some w ∧ v.same w = true := by
  rw [Document.same, Value.same, Bool.and_eq_true] at h
  replace h := h.2
  induction d with
  | nil => cases hv
  | cons entry d ih =>
    obtain ⟨k, u⟩ := entry
    rw [Value.sameEntries, Bool.and_eq_true] at h
    rw [value?_cons] at hv
    split at hv
    · next heq =>
      subst heq
      obtain rfl := Option.some.inj hv
      rcases hw : e.value? k with _ | w
      · simp [hw] at h
      · exact ⟨w, rfl, by simpa [hw] using h.1⟩
    · exact ih hv h.2

/-- **What stands at a path** of a document has its like there in a document that is the same. -/
theorem StandsAt.exists_same {v : Value} {keys : List String} {d e : Document}
    (h : StandsAt v keys d) (hsame : d.same e = true) :
    ∃ w, StandsAt w keys e ∧ v.same w = true := by
  induction h generalizing e with
  | here hv =>
    obtain ⟨w, hw, hvw⟩ := exists_value?_of_same hsame hv
    exact ⟨w, .here hw, hvw⟩
  | inside hinner _ ih =>
    obtain ⟨w, hw, hvw⟩ := exists_value?_of_same hsame hinner
    -- Only a document is the same as a document.
    rcases w with a | items | inner
    · simp [Value.same] at hvw
    · simp [Value.same] at hvw
    · obtain ⟨u, hu, hvu⟩ := ih hvw
      exact ⟨u, .inside hw hu, hvu⟩

end Document

end DocQuery
