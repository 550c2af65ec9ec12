import DocQuery.Proofs.WrittenPaths

/-!
# Writes and diverging paths

Two paths apart from each other share a way and then diverge. Writing at one of them rebuilds the
documents on the shared way and keeps everything else in them, so that the other is read as before
(`Document.read?_write_diverging`), also through arrays behind the point where the two diverge.

There is one exception. Reading goes through an array on the shared way, element by element, but
writing does not: it puts a document in the place of the array, and the other path, which read an
array before, then reads nothing (`Document.read?_write_tags`). `Document.MeetsArray` says when this
happens.

The statement about one write is carried along the fields of an update that sets them
(`Document.read?_updatedBy_set`): writing at a path brings no array to a way that it shares with
others (`Document.MeetsArray.of_writeAt`).
-/

namespace DocQuery.Document

variable {keys others : List String} {d : Document}

/-! ### Arrays on a shared way -/

/-- An array stands on the way that two places have in common, and the way to it leads through
documents. -/
def MeetsArray (keys others : List String) (d : Document) : Prop :=
  ∃ way items, way <+: keys ∧ way <+: others ∧ StandsAt (.array items) way d

/-- Places under different keys share no way. -/
private theorem not_meetsArray_of_ne {key other : String} (hne : key ≠ other) :
    ¬ MeetsArray (key :: keys) (other :: others) d := by
  rintro ⟨way, items, hkeys, hothers, hstands⟩
  rcases way with _ | ⟨first, way⟩
  · cases hstands
  · exact hne ((List.cons_prefix_cons.mp hkeys).1.symm.trans (List.cons_prefix_cons.mp hothers).1)

/-- Under one key the shared way meets an array that stands there, or one further inside. -/
theorem meetsArray_cons_iff {key : String} :
    MeetsArray (key :: keys) (key :: others) d ↔
      (∃ items, d.value? key = some (.array items)) ∨
        ∃ inner, d.value? key = some (.document inner) ∧ MeetsArray keys others inner := by
  constructor
  · rintro ⟨way, items, hkeys, hothers, hstands⟩
    cases hstands with
    | here h =>
      rw [(List.cons_prefix_cons.mp hkeys).1] at h
      exact Or.inl ⟨items, h⟩
    | @inside _ way _ inner h hinner =>
      obtain ⟨heq, hbehind⟩ := List.cons_prefix_cons.mp hkeys
      rw [heq] at h
      exact Or.inr ⟨inner, h, way, items, hbehind, (List.cons_prefix_cons.mp hothers).2, hinner⟩
  · rintro (⟨items, h⟩ | ⟨inner, h, way, items, hkeys, hothers, hstands⟩)
    · exact ⟨[key], items, ⟨keys, rfl⟩, ⟨others, rfl⟩, .here h⟩
    · exact ⟨key :: way, items, List.cons_prefix_cons.mpr ⟨rfl, hkeys⟩,
        List.cons_prefix_cons.mpr ⟨rfl, hothers⟩, .inside h hstands⟩

theorem not_meetsArray_nil : ¬ MeetsArray keys others [] := by
  rintro ⟨way, items, -, -, hstands⟩
  cases hstands with
  | here h => cases h
  | inside h _ => cases h

/-- The empty document, which is written into where no document stands, has nothing to read. -/
theorem follow?_nil_of_ne_nil (h : others ≠ []) : (Value.document []).follow? others = none := by
  obtain ⟨other, others, rfl⟩ := List.exists_cons_of_ne_nil h
  rw [Value.follow?_document, value?_nil, Option.bind_none]

/-! ### One write -/

/-- **One write and a diverging way.** If no array is met on the shared way, the same is read there
as before; if there is one, an array was read there, and nothing is read any more. -/
theorem follow?_writeAt_diverging (hkeys : ¬ keys <+: others) (hothers : ¬ others <+: keys)
    (d : Document) (w : Value) :
    (¬ MeetsArray keys others d →
        (Value.document (writeAt keys d w)).follow? others = (Value.document d).follow? others) ∧
      (MeetsArray keys others d →
        (∃ items, (Value.document d).follow? others = some (.array items)) ∧
          (Value.document (writeAt keys d w)).follow? others = none) := by
  induction keys generalizing others d with
  | nil => exact absurd List.nil_prefix hkeys
  | cons key keys ih =>
    rcases others with _ | ⟨other, others⟩
    · exact absurd List.nil_prefix hothers
    by_cases hne : key ≠ other
    · obtain ⟨u, hu⟩ := exists_writeAt_cons key keys d w
      refine ⟨fun _ => ?_, fun hmeets => absurd hmeets (not_meetsArray_of_ne hne)⟩
      rw [hu, Value.follow?_document, Value.follow?_document, value?_put_of_ne d u hne]
    obtain rfl := Decidable.not_not.mp hne
    -- Both ways lead on behind the key, since neither of them ends there.
    obtain ⟨next, keys, rfl⟩ : ∃ next rest, keys = next :: rest :=
      List.exists_cons_of_ne_nil fun hnil => hkeys (hnil ▸ ⟨others, rfl⟩)
    obtain ⟨onward, others, rfl⟩ : ∃ onward rest, others = onward :: rest :=
      List.exists_cons_of_ne_nil fun hnil => hothers (hnil ▸ ⟨next :: keys, rfl⟩)
    have hinside := ih (fun hprefix => hkeys (List.cons_prefix_cons.mpr ⟨rfl, hprefix⟩))
      (fun hprefix => hothers (List.cons_prefix_cons.mpr ⟨rfl, hprefix⟩)) (d.child key)
    have hwritten : (Value.document (writeAt (key :: next :: keys) d w)).follow?
        (key :: onward :: others) =
        (Value.document (writeAt (next :: keys) (d.child key) w)).follow? (onward :: others) := by
      rw [writeAt, Value.follow?_document, value?_put_self, Option.bind_some]
      exact List.cons_ne_nil next keys
    have hread : (Value.document d).follow? (key :: onward :: others) =
        (d.value? key).bind (Value.follow? · (onward :: others)) := Value.follow?_document ..
    rw [hwritten, hread, meetsArray_cons_iff]
    -- Where no document stands under the key, the write goes into an empty one.
    have hfresh : d.child key = [] →
        (Value.document (writeAt (next :: keys) (d.child key) w)).follow? (onward :: others) =
          none := by
      intro hchild
      rw [hinside.1 (hchild ▸ not_meetsArray_nil), hchild]
      exact follow?_nil_of_ne_nil (List.cons_ne_nil onward others)
    rcases hvalue : d.value? key with _ | (a | items | inner)
    · rw [hfresh (by rw [child, hvalue])]
      simp
    · rw [hfresh (by rw [child, hvalue])]
      simp
    · rw [hfresh (by rw [child, hvalue])]
      simp [Value.follow?_array]
    · have hchild : d.child key = inner := by rw [child, hvalue]
      rw [hchild] at hinside ⊢
      simpa only [Option.bind_some, Option.some.injEq, reduceCtorEq, exists_false, false_or,
        Value.document.injEq, exists_eq_left'] using hinside

/-- **A write leaves diverging paths alone**, unless an array stands on the way that they share with
its own. Then the array is lost to a document: a diverging path read an array before, and reads
nothing afterwards. -/
theorem read?_write_diverging {path other : String} (h : Path.Apart path other) (d : Document)
    (v : Value) :
    (¬ MeetsArray (Path.segments path) (Path.segments other) d →
        (d.write path v).read? other = d.read? other) ∧
      (MeetsArray (Path.segments path) (Path.segments other) d →
        (∃ items, d.read? other = some (.array items)) ∧ (d.write path v).read? other = none) :=
  follow?_writeAt_diverging h.1 h.2 d v

/-- A note with a list of tags inside another document. -/
def filedNote : Document :=
  [(idKey, .int32 1), ("file", .document [("place", .string "shelf"),
    ("tags", .array [.document [("name", .string "x")], .document [("name", .string "y")]])])]

/-- Writing behind the place of the note, a text that makes way for a document, leaves the names of
its tags, which are read through an array behind the shared way. -/
theorem read?_write_diverging_filedNote :
    Path.Apart "file.place.row" "file.tags.name" ∧
      ¬ MeetsArray (Path.segments "file.place.row") (Path.segments "file.tags.name") filedNote ∧
      filedNote.read? "file.tags.name" = some (.array [.string "x", .string "y"]) ∧
      (filedNote.write "file.place.row" (.int32 3)).read? "file.tags.name" =
        some (.array [.string "x", .string "y"]) := by
  have happart : Path.Apart "file.place.row" "file.tags.name" := by decide
  have hmeets :
      ¬ MeetsArray (Path.segments "file.place.row") (Path.segments "file.tags.name") filedNote := by
    have hpath : Path.segments "file.place.row" = ["file", "place", "row"] := by
      decide +kernel
    have hother : Path.segments "file.tags.name" = ["file", "tags", "name"] := by
      decide +kernel
    have hfile : filedNote.value? "file" = some (.document [("place", .string "shelf"),
      ("tags", .array [.document [("name", .string "x")], .document [("name", .string "y")]])]) :=
      rfl
    rw [hpath, hother, meetsArray_cons_iff, hfile]
    rintro (⟨items, heq⟩ | ⟨inner, -, hinner⟩)
    · cases heq
    · exact not_meetsArray_of_ne (by decide) hinner
  have hread : filedNote.read? "file.tags.name" = some (.array [.string "x", .string "y"]) := by
    decide +kernel
  exact ⟨happart, hmeets, hread,
    ((read?_write_diverging happart filedNote (.int32 3)).1 hmeets).trans hread⟩

/-- A note with a list of tags. -/
def taggedNote : Document :=
  [(idKey, .int32 1), ("tags", .array [.document [("name", .string "x")]])]

/-- **Arrays are lost.** A write of the number of the tags takes their names. -/
theorem read?_write_tags :
    Path.Apart "tags.count" "tags.name" ∧
      taggedNote.read? "tags.name" = some (.array [.string "x"]) ∧
      (taggedNote.write "tags.count" (.int32 1)).read? "tags.name" = none :=
  ⟨by decide, by decide +kernel, by decide +kernel⟩

/-! ### Several writes -/

/-- On the way to what it writes, a write leaves documents only. -/
private theorem not_standsAt_array_of_prefix {way : List String} {items : List Value} {w : Value}
    (hway : way <+: keys) (hne : ¬ keys <+: way) :
    ¬ StandsAt (.array items) way (writeAt keys d w) := by
  induction keys generalizing way d with
  | nil => exact absurd List.nil_prefix hne
  | cons key keys ih =>
    rcases way with _ | ⟨first, way⟩
    · nofun
    obtain ⟨rfl, hbehind⟩ := List.cons_prefix_cons.mp hway
    obtain ⟨next, keys, rfl⟩ : ∃ next rest, keys = next :: rest :=
      List.exists_cons_of_ne_nil fun hnil => hne (hnil ▸ ⟨way, rfl⟩)
    have hvalue : (writeAt (first :: next :: keys) d w).value? first =
        some (.document (writeAt (next :: keys) (d.child first) w)) := value?_put_self d first _
    intro hstands
    cases hstands with
    | here h => cases hvalue.symm.trans h
    | inside h hinner =>
      obtain rfl := Value.document.inj (Option.some.inj (hvalue.symm.trans h))
      exact ih hbehind (fun hprefix => hne (List.cons_prefix_cons.mpr ⟨rfl, hprefix⟩)) hinner

/-- A write brings no array to a way that leads to a place apart from its own. -/
theorem MeetsArray.of_writeAt {ways : List String} {w : Value}
    (h : MeetsArray ways others (writeAt keys d w)) (hkeys : ¬ keys <+: others) :
    MeetsArray ways others d := by
  obtain ⟨way, items, hways, hothers, hstands⟩ := h
  have hbehind : ¬ keys <+: way := fun hleads => hkeys (hleads.trans hothers)
  have hbefore : ¬ way <+: keys := fun hprefix =>
    not_standsAt_array_of_prefix hprefix hbehind hstands
  exact ⟨way, items, hways, hothers, hstands.of_writeAt hbehind hbefore⟩

/-- Writes at several paths leave a path alone that diverges from all of them, where they meet no
array. -/
private theorem read?_writeEach_diverging {fields : Document} {path : String}
    (hpath : ∀ key ∈ fields.keys, Path.Apart key path)
    (hmeets : ∀ key ∈ fields.keys, ¬ MeetsArray (Path.segments key) (Path.segments path) d) :
    (d.writeEach fields).read? path = d.read? path := by
  induction fields generalizing d with
  | nil => rfl
  | cons e fields ih =>
    obtain ⟨hfirst, hrest⟩ := List.forall_mem_cons.mp hpath
    obtain ⟨hfirstMeets, hrestMeets⟩ := List.forall_mem_cons.mp hmeets
    have hwritten : (d.write e.1 e.2).read? path = d.read? path :=
      (follow?_writeAt_diverging hfirst.1 hfirst.2 d e.2).1 hfirstMeets
    refine (ih hrest fun key hkey hmeets => hrestMeets key hkey ?_).trans hwritten
    exact hmeets.of_writeAt hfirst.1

/-- **An update that sets fields** changes only these: it makes a document of the old one in which
every path that diverges from all of the fields, and meets no array on the way with one of them, is
read as before. -/
theorem read?_updatedBy_set {fields : Document} {path : String}
    (hpath : ∀ key ∈ fields.keys, Path.Apart key path)
    (hmeets : ∀ key ∈ fields.keys, ¬ MeetsArray (Path.segments key) (Path.segments path) d) :
    ∃ d', d.updatedBy [("$set", .document fields)] = .ok d' ∧ d'.read? path = d.read? path :=
  ⟨d.writeEach fields, updatedBy_set d fields, read?_writeEach_diverging hpath hmeets⟩

end DocQuery.Document
