import DocQuery.Proofs.SortedDocuments
import DocQuery.Proofs.WrittenPaths
import Mathlib.Data.List.Induction

/-!
# Sort keys that repeat a path

The sort document of sort keys need not keep their meaning. A path that the keys name again keeps
its first place in the document, and nothing decides after it that was level before; but it takes
the last of its directions. So the document sorts by `SortKeys.settled`, and as the keys say exactly
if each path is given the same direction first and last (`SortKeys.sortBy_toDocument`).

Why the first directions would do: documents are compared at the first path in which they are not
level (`SortKeys.compare_of_decisive?`), and no path is that which repeats another. Why no other
direction does: two documents that differ at one path alone are level in all others.
-/

namespace DocQuery

/-! ### Sort documents of sort keys -/

/-- A document that has no key twice is known from its keys and their values. -/
private theorem Document.filterMap_keys {d : Document} (h : d.keys.Nodup) :
    d.keys.filterMap (fun key => (d.value? key).map (key, ·)) = d := by
  induction d with
  | nil => rfl
  | cons e d ih =>
    obtain ⟨key, v⟩ := e
    obtain ⟨hkey, hd⟩ := List.nodup_cons.mp h
    have hrest : ∀ other ∈ keys d, (value? ((key, v) :: d) other).map (other, ·) =
        (value? d other).map (other, ·) := by
      intro other hother
      have hne : key ≠ other := fun heq => hkey (heq ▸ hother)
      rw [value?_cons, if_neg hne]
    change (key :: keys d).filterMap _ = (key, v) :: d
    rw [List.filterMap_cons, value?_cons, if_pos rfl, List.filterMap_congr hrest, ih hd]
    rfl

namespace SortKeys

/-- What the sort document keeps of sort keys: each path at its first place, with its last
direction. -/
def settled (keys : SortKeys) : SortKeys :=
  (keys.map (·.1)).eraseDups.filterMap fun path => (keys.reverse.lookup path).map (path, ·)

private theorem toDocument_concat (keys : SortKeys) (key : String × Direction) :
    toDocument (keys ++ [key]) = keys.toDocument.put key.1 key.2.toValue :=
  List.foldl_append ..

private theorem nodup_keys_toDocument (keys : SortKeys) : keys.toDocument.keys.Nodup := by
  induction keys using List.reverseRecOn with
  | nil => exact List.nodup_nil
  | append_singleton keys key ih =>
    rw [toDocument_concat]
    exact Document.nodup_keys_put ih

/-- The document has each path once, at its first place. -/
private theorem keys_toDocument (keys : SortKeys) :
    keys.toDocument.keys = (keys.map (·.1)).eraseDups := by
  induction keys using List.reverseRecOn with
  | nil => rfl
  | append_singleton keys key ih =>
    rw [toDocument_concat, List.map_append, List.eraseDups_append]
    by_cases hmem : key.1 ∈ keys.map (·.1)
    · have hkey : key.1 ∈ (toDocument keys).keys := ih ▸ List.mem_eraseDups.mpr hmem
      rw [Document.keys_put_of_mem _ hkey, ih]
      simp [List.removeAll, hmem]
    · have hkey : key.1 ∉ (toDocument keys).keys := ih ▸ mt List.mem_eraseDups.mp hmem
      rw [Document.keys_put_of_not_mem _ hkey, ih]
      simp [List.removeAll, hmem, List.eraseDups_cons]

/-- The document has the last direction of each path. -/
private theorem value?_toDocument (keys : SortKeys) (path : String) :
    keys.toDocument.value? path = (keys.reverse.lookup path).map Direction.toValue := by
  induction keys using List.reverseRecOn with
  | nil => rfl
  | append_singleton keys key ih =>
    rw [toDocument_concat, List.reverse_concat, List.lookup_cons]
    by_cases hpath : key.1 = path
    · subst hpath
      rw [Document.value?_put_self, beq_self_eq_true]
      rfl
    · rw [Document.value?_put_of_ne _ _ hpath, ih, beq_false_of_ne (Ne.symm hpath)]

/-- The sort document of sort keys lists the settled ones. -/
private theorem ofDocument_toDocument (keys : SortKeys) :
    ofDocument keys.toDocument = .ok keys.settled := by
  have hdocument : keys.toDocument = keys.settled.map fun key => (key.1, key.2.toValue) := by
    rw [← Document.filterMap_keys keys.nodup_keys_toDocument, keys_toDocument, settled,
      List.map_filterMap]
    refine List.filterMap_congr fun path _ => ?_
    rw [value?_toDocument, Option.map_map, Option.map_map]
    rfl
  have hlisted : ∀ ks : SortKeys,
      ofDocument (ks.map fun key => (key.1, key.2.toValue)) = .ok ks := by
    intro ks
    induction ks with
    | nil => rfl
    | cons key ks ih =>
      rw [List.map_cons, ofDocument, Direction.ofValue?_toValue, ih]
      rfl
  rw [hdocument, hlisted]

/-! ### What repeated paths decide -/

/-- The first path in which two documents are not level. -/
def decisive? (keys : SortKeys) (d e : Document) : Option String :=
  (keys.map (·.1)).find? fun path => Value.order (d.read? path) (e.read? path) != .eq

/-- Documents that are level in all paths are level. -/
private theorem compare_of_decisive?_none {keys : SortKeys} {d e : Document}
    (h : keys.decisive? d e = none) : keys.compare d e = .eq := by
  refine compare_eq_eq_iff.mpr fun key hkey => ?_
  have hlevel := List.find?_eq_none.mp h key.1 (List.mem_map_of_mem hkey)
  simpa using hlevel

/-- The first path in which documents are not level decides, in the first direction it is given. -/
theorem compare_of_decisive? {keys : SortKeys} {d e : Document} {path : String}
    {direction : Direction} (h : keys.decisive? d e = some path)
    (hdirection : keys.lookup path = some direction) :
    keys.compare d e = direction.orient (Value.order (d.read? path) (e.read? path)) := by
  induction keys with
  | nil => cases h
  | cons key keys ih =>
    obtain ⟨first, o⟩ := key
    rw [decisive?, List.map_cons, List.find?_cons] at h
    rw [List.lookup_cons] at hdirection
    split at h
    · next hne =>
      obtain rfl := Option.some.inj h
      rw [beq_self_eq_true] at hdirection
      obtain rfl := Option.some.inj hdirection
      have hdecides : o.orient (Value.order (d.read? first) (e.read? first)) ≠ .eq :=
        fun heq => bne_iff_ne.mp hne (Direction.orient_eq_eq_iff.mp heq)
      rw [compare]
      generalize o.orient (Value.order (d.read? first) (e.read? first)) = order at hdecides
      cases order <;> first | rfl | exact absurd rfl hdecides
    · next hlevel =>
      have heq : Value.order (d.read? first) (e.read? first) = .eq := by simpa using hlevel
      have hne : path ≠ first := by
        rintro rfl
        have hpath := List.find?_some h
        exact bne_iff_ne.mp hpath heq
      rw [beq_false_of_ne hne] at hdirection
      rw [compare, heq, ← ih h hdirection, Direction.orient_eq_eq_iff.mpr rfl]
      rfl

/-- The first element that satisfies a condition is no repetition. -/
private theorem find?_eraseDups {α : Type} [DecidableEq α] (p : α → Bool) :
    ∀ xs : List α, xs.eraseDups.find? p = xs.find? p
  | [] => rfl
  | x :: xs => by
    rw [List.eraseDups_cons, List.find?_cons, List.find?_cons]
    split
    · rfl
    · next hx =>
      rw [find?_eraseDups p (xs.filter _), List.find?_filter]
      refine congrArg (xs.find? ·) (funext fun y => ?_)
      by_cases hy : y = x
      · simp [hy, hx]
      · simp [hy]
termination_by xs => xs.length
decreasing_by exact Nat.lt_succ_of_le (List.length_filter_le _ _)

private theorem exists_lookup {keys : SortKeys} {path : String} (h : path ∈ keys.map (·.1)) :
    ∃ direction, keys.lookup path = some direction := by
  obtain ⟨key, hkey, rfl⟩ := List.mem_map.mp h
  exact Option.isSome_iff_exists.mp (List.lookup_isSome_iff.mpr ⟨key, hkey, beq_self_eq_true key.1⟩)

private theorem lookup_eq_none {keys : SortKeys} {path : String} (h : path ∉ keys.map (·.1)) :
    keys.lookup path = none := by
  refine List.lookup_eq_none_iff.mpr fun key hkey => bne_iff_ne.mpr ?_
  rintro rfl
  exact h (List.mem_map_of_mem hkey)

private theorem lookup_reverse_eq_none {keys : SortKeys} {path : String}
    (h : path ∉ keys.map (·.1)) :
    keys.reverse.lookup path = none := by
  refine lookup_eq_none ?_
  rw [List.map_reverse]
  exact mt List.mem_reverse.mp h

/-- The settled keys name the same paths, each once. -/
private theorem paths_settled (keys : SortKeys) :
    keys.settled.map (·.1) = (keys.map (·.1)).eraseDups := by
  have hsome : ∀ path ∈ (keys.map (·.1)).eraseDups,
      ((keys.reverse.lookup path).map (path, ·)).map (·.1) = some path := by
    intro path hpath
    have hmem : path ∈ keys.reverse.map (·.1) := by
      rw [List.map_reverse, List.mem_reverse]
      exact List.mem_eraseDups.mp hpath
    obtain ⟨direction, hdirection⟩ := exists_lookup hmem
    rw [hdirection]
    rfl
  rw [settled, List.map_filterMap, List.filterMap_congr hsome, List.filterMap_some]

/-- The direction of a settled key is the last that its path is given. -/
private theorem lookup_settled (keys : SortKeys) (path : String) :
    keys.settled.lookup path = keys.reverse.lookup path := by
  by_cases hpath : path ∈ keys.map (·.1)
  · have hmem : path ∈ keys.settled.map (·.1) := keys.paths_settled ▸ List.mem_eraseDups.mpr hpath
    obtain ⟨direction, hdirection⟩ := exists_lookup hmem
    obtain ⟨before, after, hsettled, _⟩ := List.lookup_eq_some_iff.mp hdirection
    have hkey : (path, direction) ∈ keys.settled := hsettled ▸ List.mem_append_cons_self
    obtain ⟨other, _, hother⟩ := List.mem_filterMap.mp hkey
    obtain ⟨last, hlast, heq⟩ := Option.map_eq_some_iff.mp hother
    obtain ⟨rfl, rfl⟩ := Prod.mk.inj heq
    rw [hdirection, hlast]
  · have hsettled : path ∉ keys.settled.map (·.1) := by
      rw [paths_settled]
      exact mt List.mem_eraseDups.mp hpath
    rw [lookup_eq_none hsettled, lookup_reverse_eq_none hpath]

/-- Naming a path again changes nothing about which path decides. -/
private theorem decisive?_settled (keys : SortKeys) (d e : Document) :
    keys.settled.decisive? d e = keys.decisive? d e := by
  rw [decisive?, paths_settled, find?_eraseDups]
  rfl

/-- Keys that give each path the same direction first and last compare as the settled ones do. -/
private theorem compare_settled {keys : SortKeys}
    (h : ∀ path, keys.lookup path = keys.reverse.lookup path) (d e : Document) :
    keys.settled.compare d e = keys.compare d e := by
  rcases hpath : keys.decisive? d e with _ | path
  · rw [compare_of_decisive?_none hpath,
      compare_of_decisive?_none ((keys.decisive?_settled d e).trans hpath)]
  · obtain ⟨direction, hdirection⟩ := exists_lookup (List.mem_of_find?_eq_some hpath)
    have hsettled : keys.settled.lookup path = some direction := by
      rw [lookup_settled, ← h path, hdirection]
    rw [compare_of_decisive? hpath hdirection,
      compare_of_decisive? ((keys.decisive?_settled d e).trans hpath) hsettled]

private theorem places_settled {keys : SortKeys} {d : Document} (h : keys.Places d) :
    keys.settled.Places d := by
  intro key hkey
  have hpath : key.1 ∈ keys.settled.map (·.1) := List.mem_map_of_mem hkey
  rw [paths_settled] at hpath
  obtain ⟨other, hother, heq⟩ := List.mem_map.mp (List.mem_eraseDups.mp hpath)
  rw [← heq]
  exact h other hother

end SortKeys

/-! ### Documents that differ at one path -/

/-- The characters of a path, from its segments. -/
private theorem Path.intercalate_splitDots (cs : List Char) :
    List.intercalate ['.'] (splitDots cs) = cs := by
  induction cs with
  | nil => rfl
  | cons c cs ih =>
    obtain ⟨s, ss, hsplit⟩ := List.exists_cons_of_ne_nil (splitDots_ne_nil cs)
    rw [hsplit] at ih
    rw [splitDots, hsplit]
    split
    · next hc =>
      rw [hc, List.intercalate_cons_cons, ih]
      rfl
    · cases ss with
      | nil => simpa using ih
      | cons t ss =>
        rw [List.intercalate_cons_cons] at ih ⊢
        rw [← ih]
        rfl

/-- A path is known from its segments. -/
private theorem Path.segments_injective : Function.Injective segments := by
  intro p q h
  have hsplit : splitDots p.toList = splitDots q.toList :=
    List.map_injective_iff.mpr (fun _ _ => String.ofList_injective) h
  have hlist := congrArg (List.intercalate ['.']) hsplit
  rw [Path.intercalate_splitDots, Path.intercalate_splitDots] at hlist
  exact String.toList_injective hlist

namespace Document

/-- Off the path of the only value in a document, either nothing is read, whatever the value, or a
document. -/
private theorem follow?_writeAt_nil {keys others : List String} (hkeys : keys ≠ [])
    (hne : others ≠ keys) :
    (∀ a : Atom, (Value.document (writeAt keys [] (.atom a))).follow? others = none) ∨
      ∀ a : Atom, ∃ d : Document,
        (Value.document (writeAt keys [] (.atom a))).follow? others = some (.document d) := by
  induction keys generalizing others with
  | nil => exact absurd rfl hkeys
  | cons key keys ih =>
    rcases others with _ | ⟨other, others⟩
    · exact .inr fun a => ⟨_, Value.follow?_nil _⟩
    rcases keys with _ | ⟨next, keys⟩
    · refine .inl fun a => ?_
      rw [Value.follow?_document, writeAt, put, value?_cons]
      split
      · next heq =>
        rcases others with _ | ⟨second, others⟩
        · exact absurd (congrArg (fun k => [k]) heq.symm) hne
        · exact Value.follow?_atom a second others
      · rfl
    · have hwrite : ∀ a : Atom, writeAt (key :: next :: keys) [] (.atom a) =
          [(key, .document (writeAt (next :: keys) [] (.atom a)))] := fun _ => rfl
      simp only [hwrite, Value.follow?_document, value?_cons]
      by_cases heq : key = other
      · subst heq
        simp only [if_pos, Option.bind_some]
        exact ih (List.cons_ne_nil next keys) fun heq => hne (congrArg (key :: ·) heq)
      · refine .inl fun a => ?_
        rw [if_neg heq]
        rfl

variable {path other : String}

/-- Off the path of the only value in a document, its kind alone is read: nothing, or a document. -/
private theorem read?_write_of_ne (h : other ≠ path) :
    (∀ a : Atom, (write [] path (.atom a)).read? other = none) ∨
      ∀ a : Atom, ∃ d : Document, (write [] path (.atom a)).read? other = some (.document d) :=
  follow?_writeAt_nil (Path.segments_ne_nil path) (Path.segments_injective.ne h)

theorem read?_write_nil (path : String) (v : Value) : (write [] path v).read? path = some v :=
  StandsAt.read (standsAt_writeAt (Path.segments_ne_nil path) [] v)

/-- Documents of one number at the same path are level off this path. -/
private theorem order_read?_write_of_ne (h : other ≠ path) (a b : Atom) :
    Value.order ((write [] path (.atom a)).read? other) ((write [] path (.atom b)).read? other) =
      .eq := by
  rcases read?_write_of_ne h with hnone | hdocument
  · rw [hnone a, hnone b]
    rfl
  · obtain ⟨d, hd⟩ := hdocument a
    obtain ⟨e, he⟩ := hdocument b
    rw [hd, he]
    rfl

/-- A document of one value that has a place has places everywhere. -/
private theorem isPlaced_read?_write {a : Atom} (ha : a.IsPlaced) (path other : String) :
    Value.IsPlaced ((write [] path (.atom a)).read? other) := by
  by_cases h : other = path
  · subst h
    rw [read?_write_nil]
    exact ha
  · rcases read?_write_of_ne h with hnone | hdocument
    · rw [hnone a]
      trivial
    · obtain ⟨d, hd⟩ := hdocument a
      rw [hd]
      trivial

end Document

namespace SortKeys

/-- Two documents of different numbers at a path are compared by it, in the first direction it is
given. -/
private theorem compare_write {keys : SortKeys} {path : String} {direction : Direction}
    (h : keys.lookup path = some direction) :
    keys.compare (Document.write [] path (.int32 1)) (Document.write [] path (.int32 2)) =
      direction.orient .lt := by
  have hread : Value.order ((Document.write [] path (.int32 1)).read? path)
      ((Document.write [] path (.int32 2)).read? path) = .lt := by
    rw [Document.read?_write_nil, Document.read?_write_nil]
    rfl
  have hdecisive : keys.decisive? (Document.write [] path (.int32 1))
      (Document.write [] path (.int32 2)) = some path := by
    rcases hfind : keys.decisive? (Document.write [] path (.int32 1))
      (Document.write [] path (.int32 2)) with _ | other
    · have hmem : path ∈ keys.map (·.1) := by
        by_contra hmem
        rw [lookup_eq_none hmem] at h
        cases h
      have hlevel := List.find?_eq_none.mp hfind path hmem
      rw [hread] at hlevel
      exact absurd rfl hlevel
    · by_contra hne
      have hother := List.find?_some hfind
      rw [Document.order_read?_write_of_ne fun heq => hne (congrArg some heq)] at hother
      cases hother
  rw [compare_of_decisive? hdecisive h, hread]

/-- Two documents are sorted by whether one of them precedes the other. -/
private theorem sort_pair (keys : SortKeys) (d e : Document) :
    keys.sort [e, d] = if keys.compare d e = .lt then [d, e] else [e, d] := by
  simp only [sort, StableSort.sort, List.foldl_cons, List.foldl_nil, StableSort.place, beq_iff_eq]
  split <;> rfl

/-- Sorting by the sort document is sorting by the settled keys. -/
private theorem sortBy_eq_sort_settled (keys : SortKeys) (ds : List Document) :
    keys.toDocument.sortBy ds = .ok (keys.settled.sort ds) := by
  rw [Document.sortBy, ofDocument_toDocument]
  rfl

/-- Settled keys that sort two documents of different numbers at a path as the keys do give it the
same direction. -/
private theorem lookup_eq_of_sort_settled {keys : SortKeys} {path : String}
    (hpath : path ∈ keys.map (·.1))
    (h : keys.settled.sort [Document.write [] path (.int32 2), Document.write [] path (.int32 1)] =
      keys.sort [Document.write [] path (.int32 2), Document.write [] path (.int32 1)]) :
    keys.settled.lookup path = keys.lookup path := by
  have hsettled : path ∈ keys.settled.map (·.1) :=
    keys.paths_settled ▸ List.mem_eraseDups.mpr hpath
  obtain ⟨first, hfirst⟩ := exists_lookup hpath
  obtain ⟨last, hlast⟩ := exists_lookup hsettled
  have hne : Document.write [] path (.int32 1) ≠ Document.write [] path (.int32 2) := by
    intro hwrite
    have hread := congrArg (Document.read? · path) hwrite
    simp only [Document.read?_write_nil] at hread
    cases hread
  rw [sort_pair, sort_pair, compare_write hfirst, compare_write hlast] at h
  rw [hfirst, hlast]
  cases first <;> cases last <;> simp_all [Direction.orient]

end SortKeys

/-- **A sort document sorts by the settled keys**: by each path of the sort keys in its first place
and in its last direction. So it sorts as the sort keys do, for all documents whose values have
places, exactly if each path is given the same direction first and last. -/
theorem SortKeys.sortBy_toDocument (keys : SortKeys) :
    (∀ ds : List Document, (∀ d ∈ ds, keys.Places d) →
      keys.toDocument.sortBy ds =
        .ok (ds.mergeSort fun d e => (keys.settled.compare d e).isLE)) ∧
    ((∀ ds : List Document, (∀ d ∈ ds, keys.Places d) →
        keys.toDocument.sortBy ds = .ok (ds.mergeSort fun d e => (keys.compare d e).isLE)) ↔
      ∀ path, keys.lookup path = keys.reverse.lookup path) := by
  have hsettled : ∀ ds : List Document, (∀ d ∈ ds, keys.Places d) →
      keys.toDocument.sortBy ds =
        .ok (ds.mergeSort fun d e => (keys.settled.compare d e).isLE) := by
    intro ds hds
    rw [sortBy_eq_sort_settled, sort_eq_mergeSort fun d hd => places_settled (hds d hd)]
  refine ⟨hsettled, fun h path => ?_, fun h ds hds => ?_⟩
  · by_cases hpath : path ∈ keys.map (·.1)
    · -- Two documents that differ at the path alone come in the order that its direction says.
      have hplaces : ∀ d ∈ [Document.write [] path (.int32 2), Document.write [] path (.int32 1)],
          keys.Places d := by
        intro d hd key _
        rcases List.mem_pair.mp hd with rfl | rfl
        · exact Document.isPlaced_read?_write (a := .int32 2) trivial path key.1
        · exact Document.isPlaced_read?_write (a := .int32 1) trivial path key.1
      have hsort := h _ hplaces
      rw [sortBy_eq_sort_settled, ← sort_eq_mergeSort hplaces] at hsort
      rw [← lookup_settled, lookup_eq_of_sort_settled hpath (Except.ok.inj hsort)]
    · rw [lookup_eq_none hpath, lookup_reverse_eq_none hpath]
  · rw [hsettled ds hds]
    simp only [compare_settled h]

/-- By days, by names from the last to the first, and by days again, which changes nothing: the
notes of one day come by their names. -/
theorem SortKeys.sortBy_toDocument_dayTwice :
    let keys : SortKeys := [("day", .ascending), ("name", .descending), ("day", .ascending)]
    let ds : List Document := [[("day", .int32 2)], [("name", .string "rex"), ("day", .int32 1)],
      [("name", .string "tom"), ("day", .int64 1)]]
    keys.toDocument.sortBy ds = .ok (ds.mergeSort fun d e => (keys.compare d e).isLE) ∧
      keys.toDocument.sortBy ds =
        .ok (ds.mergeSort fun d e => (keys.settled.compare d e).isLE) := by
  intro keys ds
  have hplaces : ∀ d ∈ ds, keys.Places d := by decide +kernel
  have hdirections : ∀ path, keys.lookup path = keys.reverse.lookup path := fun _ => rfl
  exact ⟨(SortKeys.sortBy_toDocument keys).2.mpr hdirections ds hplaces,
    (SortKeys.sortBy_toDocument keys).1 ds hplaces⟩

/-- The day of a note, from the first on and again from the last. -/
def daysUpAndDown : List SortBy :=
  [.ascending (.single (.name "day") "notes"), .descending (.single (.name "day") "notes")]

/-- The keys of days up and down sort upwards, and their sort document downwards. -/
theorem SortKeys.sortBy_toDocument_upAndDown :
    ∃ keys, SortBy.compile .plain daysUpAndDown = .ok (some keys) ∧
      keys.toDocument.sortBy [[("day", .int32 1)], [("day", .int32 2)]] =
        .ok [[("day", .int32 2)], [("day", .int32 1)]] ∧
      [[("day", .int32 1)], [("day", .int32 2)]].mergeSort (fun d e => (keys.compare d e).isLE) =
        [[("day", .int32 1)], [("day", .int32 2)]] := by
  refine ⟨[("day", .ascending), ("day", .descending)], rfl, rfl, ?_⟩
  rw [← SortKeys.sort_eq_mergeSort (by decide +kernel)]
  rfl

end DocQuery
