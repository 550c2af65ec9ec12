import DocQuery.Proofs.WrittenPaths
import DocQuery.QueryPlan
import Mathlib.Data.List.Forall2
import Mathlib.Data.List.Nodup

/-!
# Documents of input rows

A write carries rows of operands, aligned to its fields. Each row becomes one document that holds
every operand, encoded, under the plain path of its field. The path is one key there, dots and all:
an update writes each entry at its path, but an insertion stores the document as it is.

`QueryPlan.RowDocument` says what such a document holds, and `QueryPlan.forall₂_of_inputDocuments`
that an accepted write has one for each of its rows.
-/

namespace DocQuery

/-- Lists that are related element by element have related elements at every position. -/
theorem exists_getElem?_of_forall₂ {α β : Type} {R : α → β → Prop} {xs : List α} {ys : List β}
    (h : List.Forall₂ R xs ys) {i : Nat} {x : α} (hx : xs[i]? = some x) :
    ∃ y, ys[i]? = some y ∧ R x y := by
  induction h generalizing i with
  | nil => cases hx
  | cons hfirst _ ih =>
    rcases i with _ | i
    · obtain rfl := Option.some.inj hx
      exact ⟨_, rfl, hfirst⟩
    · exact ih hx

/-- The same step for every element of a list relates the elements to their results. -/
private theorem forall₂_of_mapM {ε α β : Type} {f : α → Except ε β} {xs : List α} {ys : List β}
    (h : xs.mapM f = .ok ys) : List.Forall₂ (fun x y => f x = .ok y) xs ys := by
  have hmap : List.Forall₂ (· = ·) (xs.map f) (ys.map .ok) :=
    List.forall₂_eq_eq_eq ▸ mapM_eq_ok_iff.mp h
  exact List.forall₂_map_right_iff.mp (List.forall₂_map_left_iff.mp hmap)

namespace QueryPlan

/-! ### Paths of fields -/

/-- The plain paths of fields are those of each. -/
theorem forall₂_of_plainPaths {fs : List Field} {paths : List String}
    (h : plainPaths fs = .ok paths) :
    List.Forall₂ (fun f path => f.plainPath = .ok path) fs paths :=
  forall₂_of_mapM (plainPaths_eq_mapM fs ▸ h)

/-! ### Operands of a row -/

section Operands

variable {keys : List String} {row : List Operand} {d d' : Document}

/-- Putting the operands of a row skips the identity, and puts each other one in its turn. -/
theorem putOperands_cons {key : String} {q : Operand}
    (h : putOperands d (key :: keys) (q :: row) = .ok d') :
    (key = idKey ∧ putOperands d keys row = .ok d') ∨
      key ≠ idKey ∧ ∃ v, q.encode = .ok v ∧ putOperands (d.put key v) keys row = .ok d' := by
  rw [putOperands] at h
  split at h
  · next hkey => exact Or.inl ⟨hkey, h⟩
  · next hkey => exact Or.inr ⟨hkey, bind_eq_ok_iff.mp h⟩

/-- Operands leave other keys, and the identity, as they are. -/
theorem value?_putOperands (h : putOperands d keys row = .ok d') {other : String}
    (hother : other ∉ keys ∨ other = idKey) : d'.value? other = d.value? other := by
  induction keys generalizing row d with
  | nil =>
    obtain rfl := Except.ok.inj h
    rfl
  | cons key keys ih =>
    rcases row with _ | ⟨q, row⟩
    · obtain rfl := Except.ok.inj h
      rfl
    have hrest : other ∉ keys ∨ other = idKey :=
      hother.imp_left fun hnot hmem => hnot (List.mem_cons_of_mem _ hmem)
    rcases putOperands_cons h with ⟨-, h⟩ | ⟨hkey, v, -, h⟩
    · exact ih h hrest
    · have hne : key ≠ other := by
        rintro rfl
        exact hother.elim (fun hnot => hnot List.mem_cons_self) hkey
      exact (ih h hrest).trans (Document.value?_put_of_ne d v hne)

/-- Every operand but that of the identity is put under its key. -/
private theorem exists_value?_putOperands (hnodup : keys.Nodup)
    (h : putOperands d keys row = .ok d') {key : String} {q : Operand}
    (hmem : (key, q) ∈ keys.zip row) (hkey : key ≠ idKey) :
    ∃ v, q.encode = .ok v ∧ d'.value? key = some v := by
  induction keys generalizing row d with
  | nil => cases hmem
  | cons first keys ih =>
    rcases row with _ | ⟨p, row⟩
    · cases hmem
    obtain ⟨hfirst, hrest⟩ := List.nodup_cons.mp hnodup
    rcases List.mem_cons.mp hmem with heq | hmem
    · obtain ⟨rfl, rfl⟩ := Prod.mk.inj heq
      rcases putOperands_cons h with ⟨hid, -⟩ | ⟨-, v, hv, h⟩
      · exact absurd hid hkey
      · refine ⟨v, hv, ?_⟩
        rw [value?_putOperands h (Or.inl hfirst)]
        exact Document.value?_put_self d key v
    · rcases putOperands_cons h with ⟨-, h⟩ | ⟨-, v, -, h⟩
      · exact ih hrest h hmem
      · exact ih hrest h hmem

/-- Putting operands adds no key twice, and none but theirs. -/
private theorem keys_putOperands (h : putOperands d keys row = .ok d') (hd : d.keys.Nodup) :
    d'.keys.Nodup ∧ ∀ key ∈ d'.keys, key ∈ d.keys ∨ key ∈ keys := by
  induction keys generalizing row d with
  | nil =>
    obtain rfl := Except.ok.inj h
    exact ⟨hd, fun key hkey => Or.inl hkey⟩
  | cons first keys ih =>
    rcases row with _ | ⟨q, row⟩
    · obtain rfl := Except.ok.inj h
      exact ⟨hd, fun key hkey => Or.inl hkey⟩
    rcases putOperands_cons h with ⟨-, h⟩ | ⟨-, v, -, h⟩
    · obtain ⟨hnodup, hsubset⟩ := ih h hd
      exact ⟨hnodup, fun key hkey => (hsubset key hkey).imp_right (List.mem_cons_of_mem _)⟩
    obtain ⟨hnodup, hsubset⟩ := ih h (Document.nodup_keys_put hd)
    refine ⟨hnodup, fun key hkey => ?_⟩
    rcases hsubset key hkey with hmem | hmem
    · rcases Document.mem_keys_put.mp hmem with rfl | hmem
      · exact Or.inr List.mem_cons_self
      · exact Or.inl hmem
    · exact Or.inr (List.mem_cons_of_mem _ hmem)

/-- Putting operands keeps what holds of all values, if it holds of those of the operands. -/
private theorem forall_putOperands {p : Value → Prop} (h : putOperands d keys row = .ok d')
    (hd : ∀ e ∈ d, p e.2) (hrow : ∀ q ∈ row, ∀ v, q.encode = .ok v → p v) : ∀ e ∈ d', p e.2 := by
  induction keys generalizing row d with
  | nil =>
    obtain rfl := Except.ok.inj h
    exact hd
  | cons key keys ih =>
    rcases row with _ | ⟨q, row⟩
    · obtain rfl := Except.ok.inj h
      exact hd
    obtain ⟨hq, hrow⟩ := List.forall_mem_cons.mp hrow
    rcases putOperands_cons h with ⟨-, h⟩ | ⟨-, v, hv, h⟩
    · exact ih h hd hrow
    · exact ih h (Document.forall_put hd key (hq v hv)) hrow

/-- The operand of the identity is one of the row. -/
private theorem mem_of_idOperand? {q : Operand} (h : idOperand? keys row = some q) : q ∈ row := by
  induction keys generalizing row with
  | nil => cases h
  | cons key keys ih =>
    rcases row with _ | ⟨p, row⟩
    · cases h
    rw [idOperand?] at h
    split at h
    · obtain rfl := Option.some.inj h
      exact List.mem_cons_self
    · exact List.mem_cons_of_mem _ (ih h)

/-- The values in the document of an input row are those of its operands. -/
theorem forall_rowDocument {p : Value → Prop} (h : rowDocument keys row = .ok d)
    (hrow : ∀ q ∈ row, ∀ v, q.encode = .ok v → p v) : ∀ e ∈ d, p e.2 := by
  rw [rowDocument] at h
  split at h
  · cases h
  rcases hid : idOperand? keys row with _ | q <;> rw [hid] at h
  · exact forall_putOperands h (fun _ => nofun) hrow
  · obtain ⟨id, hencode, h⟩ := bind_eq_ok_iff.mp h
    refine forall_putOperands h (fun e he => ?_) hrow
    exact List.mem_singleton.mp he ▸ hrow q (mem_of_idOperand? hid) id hencode

/-- Where at most one field is the identity, its operand is that of the identity. -/
theorem idOperand?_eq_some_iff (hids : keys.Pairwise fun k l => k = idKey → l ≠ idKey)
    {q : Operand} :
    idOperand? keys row = some q ↔ (idKey, q) ∈ keys.zip row := by
  induction keys generalizing row with
  | nil => exact ⟨nofun, nofun⟩
  | cons key keys ih =>
    rcases row with _ | ⟨p, row⟩
    · exact ⟨nofun, nofun⟩
    obtain ⟨hkey, hrest⟩ := List.pairwise_cons.mp hids
    rw [idOperand?, List.zip_cons_cons, List.mem_cons]
    split
    · next hid =>
      subst hid
      refine ⟨fun h => Or.inl (Prod.ext rfl (Option.some.inj h).symm), fun h => ?_⟩
      rcases h with heq | hmem
      · exact congrArg some (Prod.mk.inj heq).2.symm
      · exact absurd rfl (hkey _ (List.of_mem_zip hmem).1 rfl)
    · next hid =>
      rw [ih hrest]
      exact ⟨Or.inr, fun h => h.resolve_left fun heq => hid (Prod.mk.inj heq).1.symm⟩

end Operands

/-! ### Documents -/

/-- What the document of an input row holds: every operand, encoded, under its key, and nothing
else. -/
structure RowDocument (keys : List String) (row : List Operand) (d : Document) : Prop where
  length_eq : row.length = keys.length
  nodup : d.keys.Nodup
  subset : d.keys ⊆ keys
  exists_value? : ∀ key q, (key, q) ∈ keys.zip row → ∃ v, q.encode = .ok v ∧ d.value? key = some v

/-- The document of an input row holds its operands, where no key repeats. -/
private theorem rowDocument_spec {keys : List String} (hnodup : keys.Nodup) {row : List Operand}
    {d : Document} (h : rowDocument keys row = .ok d) : RowDocument keys row d := by
  rw [rowDocument] at h
  split at h
  · cases h
  next hlength =>
  have hids : keys.Pairwise fun k l => k = idKey → l ≠ idKey :=
    hnodup.imp fun hne hk hl => hne (hk.trans hl.symm)
  rcases hid : idOperand? keys row with _ | q <;> rw [hid] at h
  · -- Without an identity among the keys no operand is skipped.
    obtain ⟨hkeys, hsubset⟩ := keys_putOperands h List.nodup_nil
    refine ⟨Decidable.not_not.mp hlength, hkeys, fun key hkey => ?_, fun key q hmem => ?_⟩
    · exact (hsubset key hkey).resolve_left List.not_mem_nil
    · refine exists_value?_putOperands hnodup h hmem ?_
      rintro rfl
      rw [(idOperand?_eq_some_iff hids).mpr hmem] at hid
      cases hid
  · -- The identity is written first, and skipped in its turn.
    obtain ⟨id, hencode, h⟩ := bind_eq_ok_iff.mp h
    have hzip : (idKey, q) ∈ keys.zip row := (idOperand?_eq_some_iff hids).mp hid
    obtain ⟨hkeys, hsubset⟩ := keys_putOperands h (List.nodup_singleton idKey)
    refine ⟨Decidable.not_not.mp hlength, hkeys, fun key hkey => ?_, fun key p hmem => ?_⟩
    · rcases hsubset key hkey with hkey | hkey
      · exact List.mem_singleton.mp hkey ▸ (List.of_mem_zip hzip).1
      · exact hkey
    · by_cases hkey : key = idKey
      · subst hkey
        obtain rfl := Option.some.inj (hid.symm.trans ((idOperand?_eq_some_iff hids).mpr hmem))
        exact ⟨id, hencode, value?_putOperands h (Or.inr rfl)⟩
      · exact exists_value?_putOperands hnodup h hmem hkey

/-- **An accepted write** has a document for each of its rows. -/
theorem forall₂_of_inputDocuments {fs : List Field} {paths : List String}
    (hpaths : plainPaths fs = .ok paths) (hnodup : paths.Nodup) {input : List (List Operand)}
    {ds : List Document} (h : inputDocuments fs input = .ok ds) :
    List.Forall₂ (RowDocument paths) input ds := by
  rw [inputDocuments, hpaths] at h
  change rowDocuments paths input = .ok ds at h
  rw [rowDocuments_eq_mapM] at h
  exact (forall₂_of_mapM h).imp fun _ _ hrow => rowDocument_spec hnodup hrow

/-- The operand of a field is held under the path of the field. -/
theorem RowDocument.exists_operand {fs : List Field} {paths : List String}
    (hpaths : plainPaths fs = .ok paths) {row : List Operand} {d : Document}
    (h : RowDocument paths row d) {j : Nat} {f : Field} {q : Operand} (hf : fs[j]? = some f)
    (hq : row[j]? = some q) :
    ∃ path v, f.plainPath = .ok path ∧ path ∈ paths ∧ q.encode = .ok v ∧
      d.value? path = some v := by
  obtain ⟨path, hpath, hplain⟩ := exists_getElem?_of_forall₂ (forall₂_of_plainPaths hpaths) hf
  have hzip : (path, q) ∈ paths.zip row :=
    List.mem_of_getElem? (List.getElem?_zip_eq_some.mpr ⟨hpath, hq⟩)
  obtain ⟨v, hv, hvalue⟩ := h.exists_value? path q hzip
  exact ⟨path, v, hplain, List.mem_of_getElem? hpath, hv, hvalue⟩

end QueryPlan

end DocQuery
