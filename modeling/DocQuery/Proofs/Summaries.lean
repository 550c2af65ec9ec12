import DocQuery.Proofs.JoinedReads
import DocQuery.Proofs.Reductions
import DocQuery.Proofs.RowReads
import DocQuery.Runtime.Regex.Engine

/-!
# What aggregates summarize

An aggregate reports one value, and a caller takes it for a summary of what the read with the same
parts delivers. Three commands stand behind it, and each honours parts of its own: a count without
joins counts what the filters select, a count with joins runs all of the joined read, and the other
aggregates reduce the values of a field over what the filters select.

`Query.summarized` is the read whose rows an aggregate summarizes, with just the parts that the
command honours, and `Database.execute_summary` says that it does: where this read delivers rows,
the aggregate reports their number, or what its accumulator makes of their values. Joins, sorts and
pages that are left out there do make a difference (`Database.execute_summary_ne`).
-/

namespace DocQuery

/-! ### The reference -/

/-- What an aggregate function makes of rows: their number, or what its accumulator makes of their
values at a field. -/
def AggregateFunction.summary (function : AggregateFunction) (f : Field) (rows : List Row) :
    Except Error Value :=
  match function.accumulator? with
  | none => .ok (.int64 (Int64.ofNat rows.length))
  | some a => do
    let vs ← rows.mapM (·.value f)
    pure (a.reduce vs)

/-- The read whose rows an aggregate of a query summarizes. A count with joins honours all parts of
the query, one without joins has no page, and the other aggregates have filters alone. -/
def Query.summarized (q : Query) (function : AggregateFunction) : Query :=
  match function with
  | .count =>
    match q.joins with
    | [] => { schema := q.schema, action := .read, filters := q.filters, sorts := q.sorts }
    | _ :: _ => { q with action := .read, fields := [], input := [] }
  | _ => { schema := q.schema, action := .read, filters := q.filters }

section Summarized

variable {q : Query} {f : Field} {function : AggregateFunction}

private theorem Query.summarized_plain (hjoins : q.joins = []) :
    q.summarized .count =
      { schema := q.schema, action := .read, filters := q.filters, sorts := q.sorts } := by
  rw [summarized, hjoins]

private theorem Query.summarized_joined (hjoins : q.joins ≠ []) :
    q.summarized .count = { q with action := .read, fields := [], input := [] } := by
  rw [summarized]
  rcases hcons : q.joins with _ | ⟨j, js⟩
  · exact absurd hcons hjoins
  · rfl

private theorem Query.summarized_of_ne_count (hcount : function ≠ .count) :
    q.summarized function = { schema := q.schema, action := .read, filters := q.filters } := by
  cases function with
  | count => exact absurd rfl hcount
  | _ => rfl

/-! ### Plans -/

private theorem Query.compile_aggregate {a : Aggregate} (haction : q.action = .aggregate a) :
    q.compile = QueryPlan.ofAggregate q a := by
  rw [compile, haction]

/-- A count without joins counts what the filters select. -/
private theorem QueryPlan.ofAggregate_count_plain (hjoins : q.joins = []) {filter : Document}
    (hfilter : Filter.compileList .plain q.filters = .ok filter) :
    ofAggregate q (.field f .count) = .ok (.count ⟨q.schema, filter⟩) := by
  rw [ofAggregate, hjoins, hfilter]
  rfl

/-- A count with joins runs the pipeline of the joined read. -/
private theorem QueryPlan.ofAggregate_count_joined (hjoins : q.joins ≠ []) :
    ofAggregate q (.field f .count) =
      (do
        let p ← Pipeline.compile q
        pure (.joinCount ⟨q.schema, p.stages⟩)) := by
  rw [ofAggregate]
  rcases hcons : q.joins with _ | ⟨j, js⟩
  · exact absurd hcons hjoins
  · rfl

end Summarized

/-! ### Replies -/

/-- A count command reports how many documents any order of the selected ones has. -/
private theorem Catalog.count_of_perm [RegexEngine] {cat : Catalog} {name : String}
    {filter : Document} {found delivered : List Document}
    (hfound : Document.selectFrom filter (cat.collection name).documents = .ok found)
    (hperm : delivered.Perm found) : cat.count ⟨name, filter⟩ = .ok delivered.length := by
  rw [count, Collection.count]
  change (Document.selectFrom filter (cat.collection name).documents >>= _) = _
  rw [hfound, hperm.length_eq]
  rfl

/-- A reduction reports what the accumulator makes of the values of the selected documents. -/
private theorem Catalog.aggregate_reduction [RegexEngine] {cat : Catalog}
    {name accumulator path : String} {a : Accumulator}
    (ha : Accumulator.ofName? accumulator = some a) (hpath : isOperator path = false)
    {filter : Document} {found : List Document}
    (hfound : Document.selectFrom filter (cat.collection name).documents = .ok found) :
    cat.aggregate ⟨name, QueryPlan.reduction filter accumulator path⟩ =
      .ok (Stage.reduced a path found) := by
  rw [aggregate, Stage.runAll_reduction _ filter ha hpath, hfound]
  rfl

/-! ### Values of rows -/

/-- The rows of documents of a collection have at a field of it the values of the documents. -/
private theorem Row.mapM_value_ofDocument {f : Field} {schema path : String}
    (hschema : f.schema? = some schema) (hpath : f.plainPath = .ok path) (ds : List Document) :
    (ds.map (Row.ofDocument schema)).mapM (·.value f) =
      .ok (ds.map fun d => Stage.valueAt d path) := by
  rw [mapM_eq_ok_iff, List.map_map, List.map_map]
  exact List.map_congr_left fun d _ => (Row.reads_ofDocument hschema hpath d).value_eq

/-! ### The three commands -/

namespace Database

variable [RegexEngine]
variable {db : Database} {s : Server} {cat : Catalog} {q : Query} {f : Field} {rows : List Row}
  (hsound : db.connection.faults = none)
  (hcat : s.store.catalog? db.connection.handle = some cat)

include hsound hcat

/-- A count without joins reports how many documents a read without a page delivers. -/
private theorem execute_count (haction : q.action = .aggregate (.field f .count))
    (hjoins : q.joins = []) (hread : (db.execute (q.summarized .count) s).1 = ⟨rows, .ok ()⟩) :
    (db.execute q s).1 = .single (.ofCount rows.length) := by
  rw [Query.summarized_plain hjoins] at hread
  obtain ⟨sel, ds, hsel, hds, rfl⟩ := exists_of_plainRead hsound hcat rfl rfl hread
  obtain ⟨hoffset, hlimit⟩ := Query.page_of_selection hsel rfl rfl
  obtain ⟨found, hfound, hperm⟩ := Selection.perm_of_apply hoffset hlimit hds
  have hfilter := Query.filter_of_selection hsel
  have hexecute : db.execute q s = db.run (.count ⟨q.schema, sel.filter⟩) s := by
    rw [execute, Query.compile_aggregate haction, QueryPlan.ofAggregate_count_plain hjoins hfilter]
  rw [hexecute, run_count hcat, Catalog.count_of_perm hfound hperm, List.length_map]
  rfl

/-- A count with joins reports how many rows the joined read delivers. -/
private theorem execute_joinCount {plan : QueryPlan}
    (haction : q.action = .aggregate (.field f .count)) (hjoins : q.joins ≠ [])
    (hplan : q.compile = .ok plan)
    (hread : (db.execute (q.summarized .count) s).1 = ⟨rows, .ok ()⟩) :
    (db.execute q s).1 = .single (.ofCount rows.length) := by
  have hexecute : db.execute q s = db.run plan s := by rw [execute, hplan]
  rw [Query.compile_aggregate haction, QueryPlan.ofAggregate_count_joined hjoins,
    Pipeline.compile_eq] at hplan
  obtain ⟨p, hp, hplan⟩ := bind_eq_ok_iff.mp hplan
  obtain ⟨ls, hls, hp⟩ := bind_eq_ok_iff.mp hp
  obtain ⟨sel, hsel, hp⟩ := bind_eq_ok_iff.mp hp
  obtain ⟨listed, -, hp⟩ := bind_eq_ok_iff.mp hp
  obtain rfl := Except.ok.inj hp
  obtain rfl := Except.ok.inj hplan
  -- The read has the same joins and the same selection, and differs in what it projects.
  rw [Query.summarized_joined hjoins] at hread
  obtain ⟨plan', hplan', hexecute'⟩ := exists_plan_of_ending (congrArg Outcome.ending hread)
  obtain ⟨sel', hsel', rfl⟩ := Query.compile_joined
    (q := { q with action := .read, fields := [], input := [] }) rfl hjoins rfl hplan' hls
  obtain rfl : sel = sel' := Except.ok.inj (hsel.symm.trans hsel')
  rw [hexecute', run_join hcat hsound] at hread
  obtain ⟨ds, hds, rfl⟩ := Outcome.ofRead_eq_ok_iff.mp hread
  obtain ⟨ds', hds', hlength⟩ := Stage.exists_runAll_stagesOf _ listed hds
  have haggregate : cat.aggregate ⟨q.schema, Pipeline.stagesOf q.schema ls sel listed⟩ = .ok ds' :=
    hds'
  rw [hexecute, run_joinCount hcat hsound, haggregate, List.length_map, ← hlength]
  rfl

/-- An aggregate of an accumulator reports what this makes of the values that the documents selected
by its filters hold at its path; it fails only where a filter does. -/
theorem execute_reduced {function : AggregateFunction} {a : Accumulator} {path : String}
    {filter : Document} (haction : q.action = .aggregate (.field f function))
    (ha : function.accumulator? = some a) (hpath : f.plainPath = .ok path)
    (hplain : isOperator path = false)
    (hfilter : Filter.compileList .plain q.filters = .ok filter) :
    (db.execute q s).1 =
      .ofReduced (fun found => .aggregate (a.reduce (found.map fun d => Stage.valueAt d path)))
        (Document.selectFrom filter (cat.collection q.schema).documents) := by
  obtain ⟨accumulator, hname, hplan⟩ := QueryPlan.exists_ofAggregate (q := q) ha hpath hfilter
  have hexecute : db.execute q s =
      db.run (.group ⟨q.schema, QueryPlan.reduction filter accumulator path⟩) s := by
    rw [execute, Query.compile_aggregate haction, hplan]
  rw [hexecute, run_group hcat hsound, Catalog.aggregate,
    Stage.runAll_reduction _ filter hname hplain]
  rcases Document.selectFrom filter (cat.collection q.schema).documents with e | found
  · rfl
  · exact congrArg (fun v => Outcome.single (.aggregate v))
      (Stage.reducedValue_reduced a path found)

/-- Another aggregate reports what its accumulator makes of the values of the rows that a read by
its filters delivers. -/
private theorem execute_reduction {function : AggregateFunction} {plan : QueryPlan}
    (haction : q.action = .aggregate (.field f function)) (hcount : function ≠ .count)
    (hfield : f.schema? = some q.schema) (hplain : f.IsPlain .plain) (hplan : q.compile = .ok plan)
    (hread : (db.execute (q.summarized function) s).1 = ⟨rows, .ok ()⟩) :
    ∃ v, function.summary f rows = .ok v ∧ (db.execute q s).1 = .single (.aggregate v) := by
  have hexecute : db.execute q s = db.run plan s := by rw [execute, hplan]
  rw [Query.compile_aggregate haction] at hplan
  obtain ⟨accumulator, a, path, filter, ha, hname, hpath, hfilter, rfl⟩ :=
    QueryPlan.exists_reduction hcount hplan
  rw [Query.summarized_of_ne_count hcount] at hread
  obtain ⟨sel, ds, hsel, hds, rfl⟩ := exists_of_plainRead hsound hcat rfl rfl hread
  have hfilters : sel = ⟨filter, none, none, none⟩ := by
    rw [Query.selection, hfilter] at hsel
    exact (Except.ok.inj hsel).symm
  rw [hfilters, Selection.apply_filter] at hds
  refine ⟨a.reduce (ds.map fun d => Stage.valueAt d path), ?_, ?_⟩
  · rw [AggregateFunction.summary, ha]
    change ((ds.map (Row.ofDocument q.schema)).mapM (·.value f) >>= _) = _
    rw [Row.mapM_value_ofDocument hfield hpath]
    rfl
  · rw [hexecute, run_group hcat hsound, Catalog.aggregate_reduction hname (hplain path hpath) hds,
      Outcome.ofReduced, Stage.reducedValue_reduced]

/-- **Aggregates** summarize the rows that the read with the parts they honour delivers: where this
read succeeds, an accepted aggregate does, and reports the summary of its rows. -/
theorem execute_summary {function : AggregateFunction} {plan : QueryPlan}
    (haction : q.action = .aggregate (.field f function)) (hfield : f.schema? = some q.schema)
    (hplain : function ≠ .count → f.IsPlain .plain) (hplan : q.compile = .ok plan)
    (hread : (db.execute (q.summarized function) s).1 = ⟨rows, .ok ()⟩) :
    ∃ v, function.summary f rows = .ok v ∧ (db.execute q s).1 = .single (.aggregate v) := by
  by_cases hcount : function = .count
  · subst hcount
    refine ⟨.int64 (Int64.ofNat rows.length), rfl, ?_⟩
    by_cases hjoins : q.joins = []
    · exact execute_count hsound hcat haction hjoins hread
    · exact execute_joinCount hsound hcat haction hjoins hplan hread
  · exact execute_reduction hsound hcat haction hcount hfield (hplain hcount) hplan hread

end Database

/-! ### Notes -/

/-- The days of notes. -/
def dayOfNote : Field := .single (.name "day") "notes"

/-- Two notes of equal days, which are integers of different widths, and no tags. -/
def dayNotes : Server :=
  ⟨⟨⟨[("notes", ⟨[[(idKey, .int32 1), ("day", .int32 1)], [(idKey, .int32 2), ("day", .int64 1)]],
    []⟩)]⟩, [], []⟩, 0⟩

/-- Notes of the given days. -/
def notesOfDays (days : List Value) : Server :=
  ⟨⟨⟨[("notes", ⟨days.map fun day => [("day", day)], []⟩)]⟩, [], []⟩, 0⟩

attribute [local instance] Runtime.engine

/-- The days of the two notes are read, and their sum is reported. -/
theorem Database.execute_summary_dayNotes :
    ∃ plan rows, (Query.aggregate "notes" dayOfNote .sum).compile = .ok plan ∧
      ((ofConnection .sound).execute (.read "notes") dayNotes).1 = ⟨rows, .ok ()⟩ ∧
      rows.mapM (·.value dayOfNote) = .ok [.int32 1, .int64 1] ∧
      ((ofConnection .sound).execute (.aggregate "notes" dayOfNote .sum) dayNotes).1 =
        .single (.aggregate (.int32 2)) := by
  have hcat : dayNotes.store.catalog? (ofConnection .sound).connection.handle =
      some dayNotes.store.committed := rfl
  obtain ⟨plan, hplan⟩ : ∃ plan, (Query.aggregate "notes" dayOfNote .sum).compile = .ok plan :=
    ⟨_, rfl⟩
  obtain ⟨rows, hread, hrows⟩ : ∃ rows,
      ((ofConnection .sound).execute (.read "notes") dayNotes).1 = ⟨rows, .ok ()⟩ ∧
        rows.mapM (·.value dayOfNote) = .ok [.int32 1, .int64 1] := ⟨_, rfl, rfl⟩
  obtain ⟨v, hv, hexecute⟩ := execute_summary (q := .aggregate "notes" dayOfNote .sum) rfl hcat rfl
    rfl (fun _ => by decide) hplan hread
  have hsum : AggregateFunction.summary .sum dayOfNote rows = .ok (.int32 2) := by
    rw [AggregateFunction.summary]
    change (rows.mapM (·.value dayOfNote) >>= _) = _
    rw [hrows]
    rfl
  obtain rfl := Except.ok.inj (hv.symm.trans hsum)
  exact ⟨plan, rows, hplan, hread, hrows, hexecute⟩

/-- Of the two notes an aggregate reports something else than the summary of the rows that the read
with all of its parts delivers. -/
def Query.Misreports [RegexEngine] (q : Query) (f : Field) (function : AggregateFunction) : Prop :=
  ∃ rows v w, q.action = .aggregate (.field f function) ∧
    ((Database.ofConnection .sound).execute { q with action := .read, fields := [] } dayNotes).1 =
      ⟨rows, .ok ()⟩ ∧
    function.summary f rows = .ok v ∧
    ((Database.ofConnection .sound).execute q dayNotes).1 = .single (.aggregate w) ∧ v ≠ w

/-- **Not every part of a query counts for its aggregate.** A count and a sum do not stop at a
limit, a sum is not confined by a join, the least of two equal values is not the one that a sort
puts first, and a path with a dollar sign leads to the whole document. -/
theorem Database.execute_summary_ne :
    Query.Misreports ((Query.aggregate "notes" dayOfNote .count).withLimit 1) dayOfNote .count ∧
    Query.Misreports ((Query.aggregate "notes" dayOfNote .sum).withLimit 1) dayOfNote .sum ∧
    Query.Misreports ((Query.aggregate "notes" dayOfNote .sum).withJoin
      (.inner "tags" (.single (.name "note") "tags") (.identity "notes"))) dayOfNote .sum ∧
    Query.Misreports ((Query.aggregate "notes" dayOfNote .minimum).withSort
      (.field (.identity "notes") .descending)) dayOfNote .minimum ∧
    Query.Misreports (Query.aggregate "notes" (.single (.name "$ROOT") "notes") .minimum)
      (.single (.name "$ROOT") "notes") .minimum := by
  refine ⟨⟨_, .int64 1, .int64 2, rfl, rfl, rfl, rfl, by decide⟩,
    ⟨_, .int32 1, .int32 2, rfl, rfl, rfl, rfl, by decide⟩,
    ⟨_, .null, .int32 2, rfl, rfl, rfl, rfl, by decide⟩,
    ⟨_, .int64 1, .int32 1, rfl, rfl, rfl, rfl, by decide⟩,
    ⟨_, .null, .document [(idKey, .int32 1), ("day", .int32 1)], rfl, rfl, rfl, rfl, by decide⟩⟩

end DocQuery
