import DocQuery.Proofs.Summaries
import DocQuery.Proofs.ValueOrder
import DocQuery.Runtime.Regex.Engine

/-!
# Least and greatest values

A minimum or a maximum goes through the values that are neither null nor undefined and keeps one of
each two, the first of the least or the last of the greatest. On values that have places this is a
choice by a total preorder, and what it keeps in the end comes behind none of them
(`Value.foldl_kept`).

So an aggregate reports null if there is no such value at its field, and otherwise one of those that
the documents selected by its filters hold there, such that no other is lesser, or greater
(`Database.execute_extremum`).
-/

namespace DocQuery

/-! ### Choices -/

/-- Which values an extremum prefers: a minimum the lesser ones, and a maximum the greater. -/
def AggregateFunction.preference? : AggregateFunction → Option Direction
  | .minimum => some .ascending
  | .maximum => some .descending
  | _ => none

namespace Value

/-- How two values compare by their places in a direction. -/
def byPlaceIn (o : Direction) (v w : Value) : Ordering := o.orient (byPlace (some v) (some w))

instance transCmp_byPlaceIn (o : Direction) : Std.TransCmp (byPlaceIn o) :=
  have : Std.TransCmp fun v w : Value => byPlace (some v) (some w) :=
    { eq_swap := Std.OrientedCmp.eq_swap, isLE_trans := Std.TransCmp.isLE_trans }
  o.transCmp_orient fun v w : Value => byPlace (some v) (some w)

/-- The one of two values that an extremum keeps. -/
def kept (o : Direction) (v w : Value) : Value :=
  match o with
  | .ascending => if order (some v) (some w) == .gt then w else v
  | .descending => if order (some v) (some w) == .gt then v else w

/-- What is kept of two values with places is one that does not come behind the other. -/
private theorem kept_cases (o : Direction) {v w : Value} (hv : IsPlaced (some v))
    (hw : IsPlaced (some w)) :
    kept o v w = v ∧ (byPlaceIn o v w).isLE = true ∨
      kept o v w = w ∧ (byPlaceIn o w v).isLE = true := by
  have hswap : byPlace (some w) (some v) = (byPlace (some v) (some w)).swap :=
    Std.OrientedCmp.eq_swap
  cases o <;> rw [kept, order_eq_byPlace hv hw, byPlaceIn, byPlaceIn, hswap] <;>
    cases byPlace (some v) (some w) <;> simp [Direction.orient]

/-- What is kept in the end is one of the values and comes behind none of them. -/
theorem foldl_kept (o : Direction) {v : Value} {vs : List Value}
    (hvs : ∀ w ∈ v :: vs, IsPlaced (some w)) :
    vs.foldl (kept o) v ∈ v :: vs ∧
      ∀ w ∈ v :: vs, (byPlaceIn o (vs.foldl (kept o) v) w).isLE = true := by
  induction vs generalizing v with
  | nil => exact ⟨List.mem_singleton_self v, List.forall_mem_singleton.mpr Std.ReflCmp.isLE_rfl⟩
  | cons w vs ih =>
    obtain ⟨hv, hrest⟩ := List.forall_mem_cons.mp hvs
    obtain ⟨hw, hvs⟩ := List.forall_mem_cons.mp hrest
    rw [List.foldl_cons]
    rcases kept_cases o hv hw with ⟨hkept, hle⟩ | ⟨hkept, hle⟩
    · rw [hkept]
      obtain ⟨hmem, hall⟩ := ih (List.forall_mem_cons.mpr ⟨hv, hvs⟩)
      obtain ⟨hfirst, hall⟩ := List.forall_mem_cons.mp hall
      refine ⟨(List.Sublist.cons_cons v (List.sublist_cons_self w vs)).subset hmem, ?_⟩
      exact List.forall_mem_cons.mpr ⟨hfirst,
        List.forall_mem_cons.mpr ⟨Std.TransCmp.isLE_trans hfirst hle, hall⟩⟩
    · rw [hkept]
      obtain ⟨hmem, hall⟩ := ih (List.forall_mem_cons.mpr ⟨hw, hvs⟩)
      obtain ⟨hfirst, -⟩ := List.forall_mem_cons.mp hall
      exact ⟨List.mem_cons_of_mem v hmem,
        List.forall_mem_cons.mpr ⟨Std.TransCmp.isLE_trans hfirst hle, hall⟩⟩

/-- Nothing comes in a direction before what comes behind nothing. -/
private theorem orient_order_ne_lt {o : Direction} {v w : Value} (hv : IsPlaced (some v))
    (hw : IsPlaced (some w)) (h : (byPlaceIn o v w).isLE = true) :
    o.orient (order (some w) (some v)) ≠ .lt := by
  rw [order_eq_byPlace hw hv]
  intro hlt
  have hgt : byPlaceIn o v w = .gt := Std.OrientedCmp.gt_iff_lt.mpr hlt
  rw [hgt] at h
  cases h

end Value

/-! ### Extrema -/

namespace Accumulator

/-- A value is present unless it is null or undefined. -/
theorem isPresent_iff {v : Value} : isPresent v = true ↔ v ≠ .null ∧ v ≠ .atom .undefined := by
  rcases v with a | items | d
  · cases a <;> simp [isPresent]
  · simp [isPresent]
  · simp [isPresent]

variable {function : AggregateFunction} {a : Accumulator} {o : Direction}
  (ho : function.preference? = some o) (ha : function.accumulator? = some a)

include ho ha

/-- An extremum keeps one of each two present values. -/
private theorem reduce_eq_foldl (vs : List Value) :
    a.reduce vs =
      match vs.filter isPresent with
      | [] => .null
      | v :: rest => rest.foldl (Value.kept o) v := by
  have happly : a.reduce vs = a.apply vs := by
    rcases vs with _ | ⟨v, vs⟩
    · cases function <;> cases ho <;> cases ha <;> rfl
    · rfl
  rw [happly]
  cases function <;> cases ho <;> cases ha
  · rw [apply]
    rcases vs.filter isPresent with _ | ⟨v, rest⟩ <;> rfl
  · rw [apply]
    rcases vs.filter isPresent with _ | ⟨v, rest⟩ <;> rfl

/-- **An extremum** of values is null if none of them is present, and otherwise a present one such
that no other comes before it. -/
theorem reduce_extremum {vs : List Value} (hvs : ∀ v ∈ vs, Value.IsPlaced (some v)) :
    (∀ v ∈ vs, isPresent v = false) ∧ a.reduce vs = .null ∨
      a.reduce vs ∈ vs ∧ isPresent (a.reduce vs) = true ∧
        ∀ w ∈ vs, isPresent w = true →
          o.orient (Value.order (some w) (some (a.reduce vs))) ≠ .lt := by
  rw [reduce_eq_foldl ho ha]
  rcases hpresent : vs.filter isPresent with _ | ⟨v, rest⟩
  · exact Or.inl ⟨fun w hw => Bool.eq_false_iff.mpr (List.filter_eq_nil_iff.mp hpresent w hw), rfl⟩
  · have hmem : ∀ w, w ∈ v :: rest ↔ w ∈ vs ∧ isPresent w = true := fun w => by
      rw [← hpresent, List.mem_filter]
    have hplaced : ∀ w ∈ v :: rest, Value.IsPlaced (some w) := fun w hw => hvs w ((hmem w).mp hw).1
    obtain ⟨hkept, hall⟩ := Value.foldl_kept o hplaced
    obtain ⟨hin, hkept'⟩ := (hmem _).mp hkept
    refine Or.inr ⟨hin, hkept', fun w hw hw' => ?_⟩
    have hw := (hmem w).mpr ⟨hw, hw'⟩
    exact Value.orient_order_ne_lt (hplaced _ hkept) (hplaced w hw) (hall w hw)

end Accumulator

/-! ### Aggregates -/

/-- A document of a collection that satisfies a filter holds a value at a path, other than null and
undefined. -/
def Collection.HasValue [RegexEngine] (c : Collection) (filter : Document) (path : String)
    (v : Value) : Prop :=
  ∃ d ∈ c.documents, d.satisfies filter = .ok true ∧ d.read? path = some v ∧
    v ≠ .null ∧ v ≠ .atom .undefined

/-- Of the values of the selected documents the present ones are those that are held. -/
theorem Collection.hasValue_iff [RegexEngine] {c : Collection} {filter : Document}
    {found : List Document} (hfound : Document.selectFrom filter c.documents = .ok found)
    (path : String) (v : Value) :
    c.HasValue filter path v ↔
      v ∈ found.map (fun d => Stage.valueAt d path) ∧ Accumulator.isPresent v = true := by
  rw [Accumulator.isPresent_iff, List.mem_map]
  constructor
  · rintro ⟨d, hd, hsatisfies, hvalue, hv⟩
    refine ⟨⟨d, (Document.mem_selectFrom_iff hfound).mpr ⟨hd, hsatisfies⟩, ?_⟩, hv⟩
    rw [Stage.valueAt, hvalue]
    rfl
  · rintro ⟨⟨d, hd, rfl⟩, hv⟩
    obtain ⟨hd, hsatisfies⟩ := (Document.mem_selectFrom_iff hfound).mp hd
    refine ⟨d, hd, hsatisfies, ?_, hv⟩
    -- What is absent would be null.
    rw [Stage.valueAt] at hv ⊢
    rcases hvalue : d.read? path with _ | v
    · rw [hvalue] at hv
      exact absurd rfl hv.1
    · rfl

namespace Database

variable {db : Database} {s : Server} {cat : Catalog} {q : Query} {f : Field} {path : String}
  {filter : Document} {function : AggregateFunction} {o : Direction}

/-- **Extremal values.** A minimum or a maximum that succeeds reports null if and only if no
selected document holds a value at its field that is neither null nor undefined; otherwise it
reports one of these values, such that no other is lesser, or greater. -/
theorem execute_extremum [RegexEngine] (hsound : db.connection.faults = none)
    (hcat : s.store.catalog? db.connection.handle = some cat)
    (haction : q.action = .aggregate (.field f function))
    (ho : function.preference? = some o) (hpath : f.plainPath = .ok path)
    (hplain : isOperator path = false)
    (hfilter : Filter.compileList .plain q.filters = .ok filter)
    (hplaced : ∀ d ∈ (cat.collection q.schema).documents, d.satisfies filter = .ok true →
      Value.IsPlaced (d.read? path))
    (hends : (db.execute q s).1.ending = .ok ()) :
    ∃ v, (db.execute q s).1 = .single (.aggregate v) ∧
      (v = .null ↔ ∀ w, ¬(cat.collection q.schema).HasValue filter path w) ∧
      (v ≠ .null → (cat.collection q.schema).HasValue filter path v ∧
        ∀ w, (cat.collection q.schema).HasValue filter path w →
          o.orient (Value.order (some w) (some v)) ≠ .lt) := by
  obtain ⟨a, ha⟩ : ∃ a, function.accumulator? = some a := by
    cases function <;> cases ho <;> exact ⟨_, rfl⟩
  have hexecute := execute_reduced hsound hcat haction ha hpath hplain hfilter
  rcases hfound : Document.selectFrom filter (cat.collection q.schema).documents with e | found <;>
    rw [hfound] at hexecute
  · rw [hexecute] at hends
    cases hends
  have hvalues : ∀ v ∈ found.map fun d => Stage.valueAt d path, Value.IsPlaced (some v) := by
    rw [List.forall_mem_map]
    intro d hd
    obtain ⟨hd, hsatisfies⟩ := (Document.mem_selectFrom_iff hfound).mp hd
    exact Value.isPlaced_getD_null.mpr (hplaced d hd hsatisfies)
  have hholds := Collection.hasValue_iff hfound path
  refine ⟨_, hexecute, ?_⟩
  rcases Accumulator.reduce_extremum ho ha hvalues with ⟨hnone, hnull⟩ | ⟨hmem, hpresent, hall⟩
  · have hno : ∀ w, ¬(cat.collection q.schema).HasValue filter path w := fun w hw => by
      obtain ⟨hw, hpresent⟩ := (hholds w).mp hw
      rw [hnone w hw] at hpresent
      cases hpresent
    exact ⟨iff_of_true hnull hno, fun hne => absurd hnull hne⟩
  · have hheld := (hholds _).mpr ⟨hmem, hpresent⟩
    have hne := (Accumulator.isPresent_iff.mp hpresent).1
    refine ⟨iff_of_false hne fun hno => hno _ hheld, fun _ => ⟨hheld, fun w hw => ?_⟩⟩
    obtain ⟨hw, hw'⟩ := (hholds w).mp hw
    exact hall w hw hw'

end Database

/-! ### Days of several kinds -/

/-- Days of several kinds, of which the least is there twice. -/
def mixedDays : List Value := [.null, .string "x", .int64 3, .int32 3, .array [.double .zero]]

attribute [local instance] Runtime.engine

/-- The first of the least days is reported, the one that is null left aside. -/
theorem Database.execute_extremum_mixedDays :
    ((ofConnection .sound).execute (.aggregate "notes" dayOfNote .minimum)
        (notesOfDays mixedDays)).1 = .single (.aggregate (.int64 3)) ∧
      ((notesOfDays mixedDays).store.committed.collection "notes").HasValue [] "day" (.int64 3) ∧
      ∀ w, ((notesOfDays mixedDays).store.committed.collection "notes").HasValue [] "day" w →
        Value.order (some w) (some (.int64 3)) ≠ .lt := by
  have hplaced : ∀ d ∈ mixedDays.map fun day => [("day", day)],
      Value.IsPlaced (Document.read? d "day") := by decide
  have hsound : (ofConnection .sound).connection.faults = none := rfl
  obtain ⟨v, hv, -, hheld⟩ := execute_extremum hsound
    (q := .aggregate "notes" dayOfNote .minimum) (s := notesOfDays mixedDays) rfl rfl rfl rfl
    (by decide) rfl (fun d hd _ => hplaced d hd) rfl
  obtain rfl : .int64 3 = v := Row.aggregate.inj (List.cons.inj (congrArg Outcome.rows hv)).1
  exact ⟨hv, hheld (by decide)⟩

/-- **A path with a dollar sign leads elsewhere.** The field of that name has no value, and what is
reported as its minimum is the whole document. -/
theorem Database.execute_minimum_root :
    (∀ w, ¬((notesOfDays [.null]).store.committed.collection "notes").HasValue [] "$ROOT" w) ∧
      ((ofConnection .sound).execute
        (.aggregate "notes" (.single (.name "$ROOT") "notes") .minimum) (notesOfDays [.null])).1 =
          .single (.aggregate (.document [("day", .null)])) := by
  refine ⟨fun w ⟨d, hd, _, hvalue, _⟩ => ?_, rfl⟩
  obtain rfl := List.mem_singleton.mp hd
  cases hvalue

end DocQuery
