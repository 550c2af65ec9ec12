import DocQuery.Proofs.RowPaths
import DocQuery.Update
import Mathlib.Data.List.Pairwise

/-!
# Writing at paths

Writing a value at a dotted path makes the documents on the way, whatever stood there before, and
what stands at a path then is reached through documents alone. `Document.StandsAt` says just this;
it is stronger than being read at the path, where reading may also go through arrays, and it is what
later writes keep: a value that stands at a path is not disturbed by a write at a path apart from
it, neither of the two leading through the other (`Document.StandsAt.write`). So after several
writes at paths apart from each other, each value stands where it was written
(`Document.standsAt_writeEach`).
-/

namespace DocQuery

/-! ### Segments -/

namespace Path

/-- Segments have no dots. -/
private theorem not_mem_of_mem_splitDots {cs : List Char} : ∀ s ∈ splitDots cs, '.' ∉ s := by
  induction cs with
  | nil =>
    intro s hs
    rw [List.mem_singleton.mp hs]
    exact List.not_mem_nil
  | cons c cs ih =>
    intro s hs
    rw [splitDots] at hs
    split at hs
    · rcases List.mem_cons.mp hs with rfl | hs
      · exact List.not_mem_nil
      · exact ih s hs
    · next hc =>
      split at hs
      · next hnil => exact absurd hnil (splitDots_ne_nil cs)
      · next first rest hsplit =>
        rw [hsplit] at ih
        rcases List.mem_cons.mp hs with rfl | hs
        · exact List.not_mem_cons_of_ne_of_not_mem (Ne.symm hc) (ih first List.mem_cons_self)
        · exact ih s (List.mem_cons_of_mem _ hs)

/-- Characters with a dot have several segments. -/
private theorem exists_splitDots {cs : List Char} (h : '.' ∈ cs) :
    ∃ s t ss, splitDots cs = s :: t :: ss := by
  induction cs with
  | nil => cases h
  | cons c cs ih =>
    rw [splitDots]
    split
    · obtain ⟨s, ss, hsplit⟩ := List.exists_cons_of_ne_nil (splitDots_ne_nil cs)
      exact ⟨[], s, ss, congrArg _ hsplit⟩
    · next hc =>
      obtain ⟨s, t, ss, hsplit⟩ := ih ((List.mem_cons.mp h).resolve_left (Ne.symm hc))
      rw [hsplit]
      exact ⟨c :: s, t, ss, rfl⟩

theorem segments_ne_nil (path : String) : segments path ≠ [] := by
  rw [segments, ne_eq, List.map_eq_nil_iff]
  exact splitDots_ne_nil _

/-- The segments of a path are keys. -/
private theorem isKey_of_mem_segments {path key : String} (h : key ∈ segments path) :
    IsKey key := by
  obtain ⟨s, hs, rfl⟩ := List.mem_map.mp h
  rw [IsKey, String.toList_ofList]
  exact not_mem_of_mem_splitDots s hs

/-- A path that is no key leads through a first key to another. -/
theorem exists_segments {path : String} (h : ¬ IsKey path) :
    ∃ first second rest, segments path = first :: second :: rest := by
  obtain ⟨s, t, ss, hsplit⟩ := exists_splitDots (Decidable.not_not.mp h)
  exact ⟨.ofList s, .ofList t, ss.map .ofList, by rw [segments, hsplit]; rfl⟩

/-! ### Paths apart -/

/-- Two paths are apart if neither leads through the other. -/
def Apart (p q : String) : Prop := ¬ segments p <+: segments q ∧ ¬ segments q <+: segments p

instance (p q : String) : Decidable (Apart p q) :=
  inferInstanceAs (Decidable (¬ segments p <+: segments q ∧ ¬ segments q <+: segments p))

private theorem Apart.symm {p q : String} (h : Apart p q) : Apart q p := And.symm h

instance : Std.Symm Apart := ⟨fun _ _ h => h.symm⟩

theorem Apart.ne {p q : String} (h : Apart p q) : p ≠ q := by
  rintro rfl
  exact h.1 List.prefix_rfl

/-- Of paths apart from each other none is a key that another leads through. -/
theorem not_mem_of_segments {paths : List String} (hpaths : paths.Pairwise Apart)
    {path key : String} (hpath : path ∈ paths) {keys : List String}
    (hsegments : segments path = key :: keys) (hkeys : keys ≠ []) : key ∉ paths := by
  intro hmem
  have hfirst : key ∈ segments path := by
    rw [hsegments]
    exact List.mem_cons_self
  have hkey : segments key = [key] := segments_key (isKey_of_mem_segments hfirst)
  have hne : key ≠ path := by
    rintro rfl
    rw [hsegments] at hkey
    exact hkeys (List.cons.inj hkey).2
  have happart : Apart key path := hpaths.forall hmem hpath hne
  refine happart.1 ?_
  rw [hkey, hsegments]
  exact ⟨keys, rfl⟩

end Path

/-! ### What stands at a path -/

namespace Document

/-- A value stands at the place that keys lead to through documents. -/
inductive StandsAt (v : Value) : List String → Document → Prop
  /-- The last key holds the value. -/
  | here {key : String} {d : Document} (h : d.value? key = some v) : StandsAt v [key] d
  /-- The first key holds a document, in which the value stands. -/
  | inside {key : String} {keys : List String} {d inner : Document}
      (h : d.value? key = some (.document inner)) (hinner : StandsAt v keys inner) :
      StandsAt v (key :: keys) d

variable {v : Value} {d : Document}

/-- What stands at a path is read there. -/
private theorem StandsAt.follow {keys : List String} (h : StandsAt v keys d) :
    (Value.document d).follow? keys = some v := by
  induction h with
  | here h =>
    rw [Value.follow?_document, h]
    exact Value.follow?_nil v
  | inside h _ ih =>
    rw [Value.follow?_document, h]
    exact ih

theorem StandsAt.read {path : String} (h : StandsAt v (Path.segments path) d) :
    d.read? path = some v :=
  h.follow

/-- Where a value stands depends on the first key alone. -/
private theorem StandsAt.congr {key : String} {keys : List String} (h : StandsAt v (key :: keys) d)
    {e : Document} (heq : e.value? key = d.value? key) : StandsAt v (key :: keys) e := by
  cases h with
  | here h => exact .here (heq.trans h)
  | inside h hinner => exact .inside (heq.trans h) hinner

/-- A value stands where it was written. -/
theorem standsAt_writeAt {keys : List String} (hkeys : keys ≠ []) (d : Document) (v : Value) :
    StandsAt v keys (writeAt keys d v) := by
  induction keys generalizing d with
  | nil => exact absurd rfl hkeys
  | cons key keys ih =>
    rcases keys with _ | ⟨next, keys⟩
    · exact .here (value?_put_self d key v)
    · exact .inside (value?_put_self d key _) (ih (List.cons_ne_nil next keys) (d.child key))

/-- A write puts something under its first key, so only values under this key matter to it. -/
theorem exists_writeAt_cons (key : String) (keys : List String) (d : Document) (w : Value) :
    ∃ u, writeAt (key :: keys) d w = d.put key u := by
  rcases keys with _ | ⟨next, keys⟩
  · exact ⟨w, rfl⟩
  · exact ⟨_, rfl⟩

/-- A write does not disturb what stands at a place apart from its own. -/
private theorem StandsAt.writeAt {keys others : List String} (h : StandsAt v others d)
    (hkeys : ¬ keys <+: others) (hothers : ¬ others <+: keys) (w : Value) :
    StandsAt v others (writeAt keys d w) := by
  induction keys generalizing others d with
  | nil => exact absurd List.nil_prefix hkeys
  | cons key keys ih =>
    obtain ⟨u, hu⟩ := exists_writeAt_cons key keys d w
    cases h with
    | @here other _ hother =>
      have hne : key ≠ other := by
        rintro rfl
        exact hothers ⟨keys, rfl⟩
      rw [hu]
      exact .here ((value?_put_of_ne d u hne).trans hother)
    | @inside other others _ inner hother hinner =>
      by_cases hne : key = other
      · subst hne
        rcases keys with _ | ⟨next, keys⟩
        · exact absurd ⟨others, rfl⟩ hkeys
        · have hchild : d.child key = inner := by rw [child, hother]
          have hstays : StandsAt v others (Document.writeAt (next :: keys) inner w) :=
            ih hinner (fun hprefix => hkeys (List.cons_prefix_cons.mpr ⟨rfl, hprefix⟩))
              (fun hprefix => hothers (List.cons_prefix_cons.mpr ⟨rfl, hprefix⟩))
          rw [Document.writeAt, hchild]
          · exact .inside (value?_put_self d key _) hstays
          · exact List.cons_ne_nil next keys
      · rw [hu]
        exact (StandsAt.inside hother hinner).congr (value?_put_of_ne d u hne)

/-- What stands in the document under a key stands behind this key. -/
private theorem StandsAt.of_child {key : String} {keys : List String}
    (h : StandsAt v keys (d.child key)) :
    StandsAt v (key :: keys) d := by
  rw [child] at h
  split at h
  · next inner hinner => exact .inside hinner h
  · -- The empty document, which stands for what is no document, holds nothing.
    cases h with
    | here h => cases h
    | inside h _ => cases h

/-- A write brings nothing to a place apart from its own. -/
theorem StandsAt.of_writeAt {keys others : List String} {w : Value}
    (h : StandsAt v others (Document.writeAt keys d w)) (hkeys : ¬ keys <+: others)
    (hothers : ¬ others <+: keys) : StandsAt v others d := by
  induction keys generalizing others d with
  | nil => exact absurd List.nil_prefix hkeys
  | cons key keys ih =>
    obtain ⟨u, hu⟩ := exists_writeAt_cons key keys d w
    rcases others with _ | ⟨other, others⟩
    · exact absurd List.nil_prefix hothers
    by_cases hne : key = other
    · subst hne
      rcases keys with _ | ⟨next, keys⟩
      · exact absurd ⟨others, rfl⟩ hkeys
      have hvalue : (Document.writeAt (key :: next :: keys) d w).value? key =
          some (.document (Document.writeAt (next :: keys) (d.child key) w)) :=
        value?_put_self d key _
      cases h with
      | here h => exact absurd ⟨next :: keys, rfl⟩ hothers
      | inside h hinner =>
        obtain rfl := Value.document.inj (Option.some.inj (hvalue.symm.trans h))
        exact (ih hinner (fun hprefix => hkeys (List.cons_prefix_cons.mpr ⟨rfl, hprefix⟩))
          (fun hprefix => hothers (List.cons_prefix_cons.mpr ⟨rfl, hprefix⟩))).of_child
    · rw [hu] at h
      exact h.congr (value?_put_of_ne d u hne).symm

/-- A write at a path does not disturb what stands at a path apart from it. -/
theorem StandsAt.write {path other : String} (h : StandsAt v (Path.segments other) d)
    (hpath : Path.Apart path other) (w : Value) :
    StandsAt v (Path.segments other) (d.write path w) :=
  h.writeAt hpath.1 hpath.2 w

/-- A write at a path leaves what stands under every key but its first. -/
theorem value?_write {path key : String} (h : (Path.segments path).head? ≠ some key)
    (d : Document) (w : Value) : (d.write path w).value? key = d.value? key := by
  rw [write]
  rcases hpath : Path.segments path with _ | ⟨first, keys⟩ <;> rw [hpath] at h
  · rfl
  · obtain ⟨u, hu⟩ := exists_writeAt_cons first keys d w
    have hne : first ≠ key := fun heq => h (congrArg some heq)
    rw [hu, value?_put_of_ne d u hne]

/-- So does the removal of a path. -/
theorem value?_remove {path key : String} (h : (Path.segments path).head? ≠ some key)
    (d : Document) : (d.remove path).value? key = d.value? key := by
  rw [remove]
  rcases hpath : Path.segments path with _ | ⟨first, _ | ⟨next, keys⟩⟩ <;> rw [hpath] at h
  · rfl
  · exact value?_without_of_ne d fun heq => h (congrArg some heq)
  · have hne : first ≠ key := fun heq => h (congrArg some heq)
    rw [removeAt]
    · split
      · exact value?_put_of_ne d _ hne
      · rfl
    · exact List.cons_ne_nil next keys

/-! ### Several writes -/

/-- Of two values under a key the later stands. -/
private theorem put_put (d : Document) (key : String) (v w : Value) :
    (d.put key v).put key w = d.put key w := by
  induction d with
  | nil => simp [put]
  | cons e d ih =>
    obtain ⟨k, u⟩ := e
    by_cases hk : k = key
    · simp [put, hk]
    · simp [put, hk, ih]

private theorem writeAt_writeAt (keys : List String) (d : Document) (v w : Value) :
    writeAt keys (writeAt keys d v) w = writeAt keys d w := by
  induction keys generalizing d with
  | nil => rfl
  | cons key keys ih =>
    rcases keys with _ | ⟨next, keys⟩
    · exact put_put d key v w
    · have hchild : (writeAt (key :: next :: keys) d v).child key =
          writeAt (next :: keys) (d.child key) v := by
        rw [child, writeAt, value?_put_self]
        exact List.cons_ne_nil next keys
      change (writeAt (key :: next :: keys) d v).put key (.document (writeAt (next :: keys) _ w)) =
        d.put key (.document (writeAt (next :: keys) (d.child key) w))
      rw [hchild, ih]
      exact put_put d key _ _

/-- Of two values at a path the later stands. -/
theorem write_write (d : Document) (path : String) (v w : Value) :
    (d.write path v).write path w = d.write path w :=
  writeAt_writeAt _ d v w

/-- Several writes do not disturb what stands at a path apart from all of theirs. -/
private theorem StandsAt.writeEach {fields : Document} {path : String}
    (h : StandsAt v (Path.segments path) d) (hpath : ∀ key ∈ fields.keys, Path.Apart key path) :
    StandsAt v (Path.segments path) (d.writeEach fields) := by
  induction fields generalizing d with
  | nil => exact h
  | cons e fields ih =>
    obtain ⟨hfirst, hrest⟩ := List.forall_mem_cons.mp hpath
    exact ih (h.write hfirst e.2) hrest

/-- **After writes at paths apart from each other** each value stands at its path. -/
theorem standsAt_writeEach {fields : Document} (hpaths : fields.keys.Pairwise Path.Apart)
    {path : String} (hv : fields.value? path = some v) (d : Document) :
    StandsAt v (Path.segments path) (d.writeEach fields) := by
  induction fields generalizing d with
  | nil => cases hv
  | cons e fields ih =>
    obtain ⟨key, w⟩ := e
    obtain ⟨hkey, hrest⟩ := List.pairwise_cons.mp hpaths
    rw [value?_cons] at hv
    split at hv
    · next heq =>
      subst heq
      obtain rfl := Option.some.inj hv
      have hwritten : StandsAt w (Path.segments key) (d.write key w) :=
        standsAt_writeAt (Path.segments_ne_nil key) d w
      exact hwritten.writeEach fun other hother => (hkey other hother).symm
    · exact ih hrest hv (d.write key w)

/-- An update that sets paths writes at each of them. -/
theorem updatedBy_set (d fields : Document) :
    d.updatedBy [("$set", .document fields)] = .ok (d.writeEach fields) := by
  have hoperator : isOperator "$set" = true := by decide
  simp [updatedBy, keys, hoperator, applyOperators]

end Document

end DocQuery
