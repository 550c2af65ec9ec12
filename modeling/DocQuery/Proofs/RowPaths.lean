import DocQuery.Value.Path

/-!
# Paths in rows

A row holds whole documents under its keys, and a field of one of them is addressed by the key, a
dot and the path inside that document. When the key has no dot of its own, reading such a path is
reading inside the document under the key (`Document.read?_qualified`), and writing the key itself
is a plain `Document.put` (`Document.write_key`).
-/

namespace DocQuery

namespace Path

/-- A key without a dot, which as a path names itself. -/
def IsKey (key : String) : Prop := '.' ∉ key.toList

instance (key : String) : Decidable (IsKey key) := inferInstanceAs (Decidable ('.' ∉ key.toList))

/-- Characters without a dot are a single segment. -/
private theorem splitDots_of_not_mem {cs : List Char} (h : '.' ∉ cs) : splitDots cs = [cs] := by
  induction cs with
  | nil => rfl
  | cons c cs ih =>
    have hc : '.' ≠ c := List.ne_of_not_mem_cons h
    have hcs : '.' ∉ cs := List.not_mem_of_not_mem_cons h
    rw [splitDots, if_neg (Ne.symm hc), ih hcs]

/-- What stands before the first dot is the first segment. -/
private theorem splitDots_append {cs : List Char} (h : '.' ∉ cs) (ds : List Char) :
    splitDots (cs ++ '.' :: ds) = cs :: splitDots ds := by
  induction cs with
  | nil => rw [List.nil_append, splitDots, if_pos rfl]
  | cons c cs ih =>
    have hc : '.' ≠ c := List.ne_of_not_mem_cons h
    have hcs : '.' ∉ cs := List.not_mem_of_not_mem_cons h
    rw [List.cons_append, splitDots, if_neg (Ne.symm hc), ih hcs]

theorem segments_key {key : String} (h : IsKey key) : segments key = [key] := by
  rw [segments, splitDots_of_not_mem h]
  simp

/-- A qualified path leads through its key. -/
theorem segments_qualified {key : String} (h : IsKey key) (path : String) :
    segments (key ++ "." ++ path) = key :: segments path := by
  have hlist : (key ++ "." ++ path).toList = key.toList ++ '.' :: path.toList := by
    rw [String.toList_append, String.toList_append, List.append_assoc]
    rfl
  rw [segments, hlist, splitDots_append h, List.map_cons, String.ofList_toList]
  rfl

end Path

namespace Document

/-! ### Reading -/

/-- The path of a key reads what stands under it. -/
theorem read?_key {key : String} (h : Path.IsKey key) (d : Document) :
    d.read? key = d.value? key := by
  rw [read?, Path.segments_key h, Value.follow?_document]
  cases d.value? key <;> simp

/-- A qualified path reads inside the document under its key. -/
theorem read?_qualified {key : String} (h : Path.IsKey key) {row d : Document}
    (hd : row.value? key = some (.document d)) (path : String) :
    row.read? (key ++ "." ++ path) = d.read? path := by
  rw [read?, Path.segments_qualified h, Value.follow?_document, hd]
  rfl

/-! ### Writing -/

/-- Writing at the path of a key writes under the key. -/
theorem write_key {key : String} (h : Path.IsKey key) (d : Document) (v : Value) :
    d.write key v = d.put key v := by
  rw [write, Path.segments_key h, writeAt]

/-- A new key goes to the end, with its value. -/
theorem put_of_not_mem {d : Document} {key : String} (h : key ∉ d.keys) (v : Value) :
    d.put key v = d ++ [(key, v)] := by
  induction d with
  | nil => rfl
  | cons e d ih =>
    obtain ⟨k, w⟩ := e
    have hne : key ≠ k := List.ne_of_not_mem_cons h
    have hd : key ∉ keys d := List.not_mem_of_not_mem_cons h
    rw [put, if_neg (Ne.symm hne), ih hd]
    rfl

/-- A write adds its key to the keys, unless it is there. -/
theorem mem_keys_put {d : Document} {key other : String} {v : Value} :
    other ∈ (d.put key v).keys ↔ other = key ∨ other ∈ d.keys := by
  by_cases h : key ∈ d.keys
  · rw [keys_put_of_mem v h]
    refine ⟨Or.inr, fun hother => hother.elim (fun heq => heq ▸ h) id⟩
  · rw [keys_put_of_not_mem v h, List.mem_append, List.mem_singleton, or_comm]

/-- A write repeats no key. -/
theorem nodup_keys_put {d : Document} (hd : d.keys.Nodup) {key : String} {v : Value} :
    (d.put key v).keys.Nodup := by
  by_cases h : key ∈ d.keys
  · rwa [keys_put_of_mem v h]
  · rw [keys_put_of_not_mem v h]
    exact List.nodup_append.mpr ⟨hd, List.pairwise_singleton _ _, fun other hother _ hkey heq =>
      h (List.mem_singleton.mp hkey ▸ heq ▸ hother)⟩

/-- A write leaves entries that were there, and the one that is written. -/
theorem mem_or_eq_of_mem_put {d : Document} {key : String} {v : Value} {e : String × Value}
    (he : e ∈ d.put key v) : e ∈ d ∨ e = (key, v) := by
  induction d with
  | nil => exact Or.inr (List.mem_singleton.mp he)
  | cons f d ih =>
    obtain ⟨k, w⟩ := f
    rw [put] at he
    split at he
    · next hk =>
      rcases List.mem_cons.mp he with he | he
      · exact Or.inr (hk ▸ he)
      · exact Or.inl (List.mem_cons_of_mem _ he)
    · rcases List.mem_cons.mp he with he | he
      · exact Or.inl (he ▸ List.mem_cons_self)
      · exact (ih he).imp_left (List.mem_cons_of_mem _)

/-- A write keeps what holds of all values, if it holds of the one that is written. -/
theorem forall_put {p : Value → Prop} {d : Document} (hd : ∀ e ∈ d, p e.2) (key : String)
    {v : Value} (hv : p v) : ∀ e ∈ d.put key v, p e.2 := fun e he =>
  (mem_or_eq_of_mem_put he).elim (hd e) fun heq => heq ▸ hv

/-- The value under a key is that of an entry. -/
theorem mem_of_value? {d : Document} {key : String} {v : Value} (h : d.value? key = some v) :
    (key, v) ∈ d := by
  induction d with
  | nil => cases h
  | cons e d ih =>
    obtain ⟨k, w⟩ := e
    rw [value?_cons] at h
    split at h
    · next heq =>
      obtain rfl := Option.some.inj h
      rw [heq]
      exact List.mem_cons_self
    · exact List.mem_cons_of_mem _ (ih h)

/-- What stands before a key does not hide its value. -/
private theorem value?_append_of_not_mem {d : Document} {key : String} (h : key ∉ d.keys)
    (e : Document) :
    Document.value? (d ++ e) key = e.value? key := by
  induction d with
  | nil => rfl
  | cons f d ih =>
    obtain ⟨k, w⟩ := f
    have hne : key ≠ k := List.ne_of_not_mem_cons h
    have hd : key ∉ keys d := List.not_mem_of_not_mem_cons h
    rw [List.cons_append, value?_cons, if_neg (Ne.symm hne), ih hd]

/-- The value of an entry is found under its key where no entry before it has the key. -/
theorem value?_append_cons {d : Document} {key : String} (h : key ∉ d.keys) (v : Value)
    (e : Document) : Document.value? (d ++ (key, v) :: e) key = some v := by
  rw [value?_append_of_not_mem h, value?_cons, if_pos rfl]

end Document

end DocQuery
