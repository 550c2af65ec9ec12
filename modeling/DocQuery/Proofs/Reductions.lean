import DocQuery.Database
import DocQuery.Proofs.FilterMeaning
import DocQuery.Proofs.Selection

/-!
# Reductions

An aggregate that is no count runs as two stages: one selects documents by a filter, and the other
makes a single group of them and lets an accumulator reduce their values at a path. All documents
fall under the key null, so there is at most one group, and without a document there is none.

`Stage.runAll_reduction` says what the two stages deliver. They fail where the filter does, since
the values at a path can always be read and accumulated.
-/

namespace DocQuery

/-! ### Accumulators -/

/-- What an accumulator makes of the values of a group, null where no group is formed. -/
def Accumulator.reduce (a : Accumulator) (vs : List Value) : Value :=
  match vs with
  | [] => .null
  | vs => a.apply vs

/-- The members of a group are not counted by an accumulator. -/
private theorem Accumulator.ne_countName_of_ofName? {name : String} {a : Accumulator}
    (h : ofName? name = some a) : name ≠ countName := by
  rintro rfl
  cases h

/-- The accumulator that an aggregate function applies; a count applies none. -/
def AggregateFunction.accumulator? : AggregateFunction → Option Accumulator
  | .sum => some .sum
  | .average => some .average
  | .minimum => some .minimum
  | .maximum => some .maximum
  | .count => none
  | .custom _ => none

/-- The store knows the accumulator of an aggregate function by the name that a plan gives it. -/
private theorem AggregateFunction.exists_accumulator {function : AggregateFunction} {name : String}
    (h : QueryPlan.accumulator? function = some name) :
    ∃ a, function.accumulator? = some a ∧ Accumulator.ofName? name = some a := by
  cases function <;> cases h <;> exact ⟨_, rfl, rfl⟩

/-! ### The group of a reduction -/

section Reduced

variable {accumulator path : String} {a : Accumulator}

/-- The text of a path is evaluated to the values at the path. -/
private theorem Document.evaluateEach_path (hpath : isOperator path = false) (ds : List Document) :
    evaluateEach (.string ("$" ++ path)) ds = .ok (ds.map fun d => Stage.valueAt d path) := by
  induction ds with
  | nil => rfl
  | cons d ds ih =>
    have hd : Value.evaluate d (.string ("$" ++ path)) = .ok (Stage.valueAt d path) :=
      evaluateText_path hpath d
    rw [evaluateEach, hd, ih]
    rfl

/-- Accumulating the values at a path applies the accumulator to them. -/
private theorem Document.accumulate_path (ha : Accumulator.ofName? accumulator = some a)
    (hpath : isOperator path = false) (members : List Document) :
    accumulate [(accumulator, .string ("$" ++ path))] members =
      .ok (a.apply (members.map fun d => Stage.valueAt d path)) := by
  have hname : accumulator ≠ Accumulator.countName := Accumulator.ne_countName_of_ofName? ha
  rw [accumulate, if_neg hname, evaluateEach_path hpath, ha]
  rfl

/-- Under the key null all documents join one group. -/
private theorem Group.collect_null (members ds : List Document) :
    collect .null [⟨.null, members⟩] ds = .ok [⟨.null, members ++ ds⟩] := by
  induction ds generalizing members with
  | nil => rw [List.append_nil]; rfl
  | cons d ds ih =>
    have hadd : collect .null [⟨.null, members⟩] (d :: ds) =
        collect .null [⟨.null, members ++ [d]⟩] ds := rfl
    rw [hadd, ih, List.append_assoc, List.singleton_append]

/-- The specification of a group, under null, whose values at a path are accumulated. -/
def Stage.reductionSpec (accumulator path : String) : Document :=
  [(idKey, .null), (QueryPlan.resultKey, .document [(accumulator, .string ("$" ++ path))])]

/-- What a reduction delivers: one document with the reduced value, unless there is nothing to
reduce. -/
def Stage.reduced (a : Accumulator) (path : String) (ds : List Document) : List Document :=
  match ds with
  | [] => []
  | ds => [[(idKey, .null), (QueryPlan.resultKey, a.apply (ds.map fun d => valueAt d path))]]

/-- The value that is read of a reduction is the reduced one. -/
theorem Stage.reducedValue_reduced (a : Accumulator) (path : String) (ds : List Document) :
    Database.reducedValue (reduced a path ds) = a.reduce (ds.map fun d => valueAt d path) := by
  rcases ds with _ | ⟨d, ds⟩ <;> rfl

/-- Grouping under null makes one document of what the accumulator makes of the values. -/
private theorem Document.groupBy_reductionSpec (ha : Accumulator.ofName? accumulator = some a)
    (hpath : isOperator path = false) (ds : List Document) :
    groupBy (Stage.reductionSpec accumulator path) ds = .ok (Stage.reduced a path ds) := by
  rcases ds with _ | ⟨d, ds⟩
  · rfl
  have hcollect : Group.collect .null [] (d :: ds) = .ok [⟨.null, d :: ds⟩] :=
    Group.collect_null [d] ds
  have hgroup : Group.toDocument (Stage.reductionSpec accumulator path) ⟨.null, d :: ds⟩ =
      .ok [(idKey, .null),
        (QueryPlan.resultKey, a.apply ((d :: ds).map fun d => Stage.valueAt d path))] := by
    change (accumulate _ (d :: ds) >>= fun v => _) = _
    rw [accumulate_path ha hpath]
    rfl
  change (Group.collect .null [] (d :: ds) >>= _) = _
  rw [hcollect]
  change Group.toDocuments _ [_] = _
  rw [Group.toDocuments, hgroup]
  rfl

/-- **Reductions** select documents by their filter and reduce the values of these at their path. -/
theorem Stage.runAll_reduction [RegexEngine] (collection : String → List Document)
    (query : Document) (ha : Accumulator.ofName? accumulator = some a)
    (hpath : isOperator path = false) (ds : List Document) :
    runAll collection (QueryPlan.reduction query accumulator path) ds =
      (Document.selectFrom query ds).map (reduced a path) := by
  have hselect : ofDocument [("$match", .document query)] = .ok (.select query) := rfl
  have hgroup : ofDocument [("$group", .document (reductionSpec accumulator path))] =
      .ok (.group (reductionSpec accumulator path)) := rfl
  rw [QueryPlan.reduction, ← List.singleton_append, runAll_append,
    runAll_singleton collection hselect, run]
  rcases Document.selectFrom query ds with e | found
  · rfl
  · change runAll collection [[("$group", .document (reductionSpec accumulator path))]] found = _
    rw [runAll_singleton collection hgroup, run, Document.groupBy_reductionSpec ha hpath]
    rfl

end Reduced

/-! ### Plans -/

section Plans

variable {q : Query} {f : Field} {function : AggregateFunction}

/-- The plan of an aggregate of an accumulator compiles its field before its filters. -/
private theorem QueryPlan.ofAggregate_of_accumulator? {accumulator : String}
    (haccumulator : accumulator? function = some accumulator) :
    ofAggregate q (.field f function) = (do
      let path ← f.plainPath
      let filter ← Filter.compileList .plain q.filters
      pure (.group ⟨q.schema, reduction filter accumulator path⟩)) := by
  cases function with
  | count => cases haccumulator
  | custom name => cases haccumulator
  | _ =>
    obtain rfl := Option.some.inj haccumulator
    rfl

/-- The plan of an aggregate other than a count is a reduction by an accumulator that the store
knows. -/
theorem QueryPlan.exists_reduction {plan : QueryPlan} (hcount : function ≠ .count)
    (h : ofAggregate q (.field f function) = .ok plan) :
    ∃ accumulator a path filter, function.accumulator? = some a ∧
      Accumulator.ofName? accumulator = some a ∧ f.plainPath = .ok path ∧
      Filter.compileList .plain q.filters = .ok filter ∧
      plan = .group ⟨q.schema, reduction filter accumulator path⟩ := by
  rcases haccumulator : accumulator? function with _ | accumulator
  · cases function with
    | count => exact absurd rfl hcount
    | custom name => cases h
    | _ => cases haccumulator
  · rw [ofAggregate_of_accumulator? haccumulator] at h
    obtain ⟨path, hpath, h⟩ := bind_eq_ok_iff.mp h
    obtain ⟨filter, hfilter, h⟩ := bind_eq_ok_iff.mp h
    obtain ⟨a, ha, hname⟩ := AggregateFunction.exists_accumulator haccumulator
    exact ⟨accumulator, a, path, filter, ha, hname, hpath, hfilter, (Except.ok.inj h).symm⟩

/-- An aggregate of an accumulator is accepted when its field and its filters are. -/
theorem QueryPlan.exists_ofAggregate {a : Accumulator} {path : String} {filter : Document}
    (ha : function.accumulator? = some a) (hpath : f.plainPath = .ok path)
    (hfilter : Filter.compileList .plain q.filters = .ok filter) :
    ∃ accumulator, Accumulator.ofName? accumulator = some a ∧
      ofAggregate q (.field f function) =
        .ok (.group ⟨q.schema, reduction filter accumulator path⟩) := by
  obtain ⟨accumulator, haccumulator⟩ : ∃ accumulator, accumulator? function = some accumulator := by
    cases function <;> cases ha <;> exact ⟨_, rfl⟩
  obtain ⟨a', ha', hname⟩ := AggregateFunction.exists_accumulator haccumulator
  obtain rfl := Option.some.inj (ha.symm.trans ha')
  refine ⟨accumulator, hname, ?_⟩
  rw [ofAggregate_of_accumulator? haccumulator, hpath, hfilter]
  rfl

end Plans

end DocQuery
