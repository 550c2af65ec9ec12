import DocQuery.Proofs.Reductions
import DocQuery.Proofs.Replies
import DocQuery.Proofs.WrittenPaths
import DocQuery.Runtime.Regex.Engine

/-!
# What a store can refuse of an accepted query

A query that compiles is sent as a command of which the store knows every stage and every operator.
What it can still refuse is a write that would store a second document under a key, and two kinds of
comparisons in a filter, whose operands compiling does not look into (`Filter.Fault`): being one of
something that is no list, and containing a text that is no pattern.

The main theorem, `Database.refusal_of_execute`, says that these are all: on a sound connection an
accepted query ends in no other error. Read from below, a filter fails on a document only through
the fault of a comparison in it (`Filter.exists_fault_of_satisfies`), and each command fails only
through its filter, or through a duplicate. The faults are real: a comparison with one is accepted,
and fails on every document (`Filter.holds_of_fault`, `Database.execute_of_fault`).
-/

namespace DocQuery

/-- The cause that refuses a second document under a key. -/
def StoreError.IsDuplicate (cause : StoreError) : Prop :=
  ∃ collection index key, cause = .duplicateKey collection index key

/-- A pattern is refused for being none, and for nothing else. -/
private theorem RegexEngine.eq_invalidRegex_of_compile [RegexEngine] {pattern options : String}
    {cause : StoreError} (h : compile pattern options = .error cause) : cause = .invalidRegex := by
  rw [compile] at h
  generalize read _ = reply at h
  rcases reply with fault | test
  · exact (Except.error.inj h).symm
  · cases h

/-! ### Filters -/

namespace Filter

variable [RegexEngine]

/-- A comparison that cannot be decided, and the cause that the store gives. -/
inductive Fault : Filter → StoreError → Prop
  /-- To be one of an operand that is no list. -/
  | noList {field : Field} {inverse : Bool} {operand : Operand} {v : Value}
      (hv : operand.encode = .ok v) (hlist : ∀ items, v ≠ .array items) :
      Fault (.value field (.subset inverse) operand)
        (.invalidOperand (if inverse then "$nin" else "$in"))
  /-- To contain a text that is no pattern. -/
  | noPattern {field : Field} {inverse : Bool} {location : Location} {operand : Operand}
      {needle : String} (hv : operand.encode = .ok (.string needle))
      (hpattern : RegexEngine.compile (location.pattern needle) "" = .error .invalidRegex) :
      Fault (.value field (.contains inverse location) operand) .invalidRegex

/-- A comparison that fails on a value is at fault. -/
private theorem fault_of_holdsFor {field : Field} {test : FieldTest} {operand : Operand} {v : Value}
    {value : Option Value} {cause : StoreError} (hv : operand.encode = .ok v)
    (h : test.holdsFor value v = .error cause) : Fault (.value field test operand) cause := by
  rcases test with inverse | ⟨inverse, orEqual⟩ | inverse | ⟨inverse, location⟩ | custom
  · cases h
  · cases h
  · rcases v with a | items | d
    · obtain rfl := Except.error.inj h
      exact .noList hv nofun
    · cases h
    · obtain rfl := Except.error.inj h
      exact .noList hv nofun
  · rcases v with (_ | _ | _ | _ | _ | needle | _ | _ | _ | _ | _ | _ | _ | _ | _ | _) | items | d
      <;> try cases h
    rcases bind_eq_error_iff.mp h with hpattern | ⟨r, -, h⟩
    · obtain rfl := RegexEngine.eq_invalidRegex_of_compile hpattern
      exact .noPattern hv hpattern
    · cases h
  · cases h

section Faults

variable {mode : Addressing} (d : Document)

/-- A comparison at fault fails on every document. -/
theorem holds_of_fault {leaf : Filter} {cause : StoreError} (h : leaf.Fault cause) :
    holds mode d leaf = .error cause := by
  cases h with
  | noList hv hlist =>
    rw [holds, hv]
    dsimp only
    rw [FieldTest.holdsFor]
    exact hlist
  | noPattern hv hpattern =>
    rw [holds, hv]
    dsimp only
    rw [FieldTest.holdsFor, hpattern]
    rfl

mutual

/-- **A filter that fails** on a document fails through the fault of a comparison in it, if it holds
no raw query document. -/
theorem exists_fault_of_holds : ∀ (f : Filter) {cause : StoreError},
    (∀ query, .raw query ∉ leaves f) → holds mode d f = .error cause →
      ∃ leaf ∈ leaves f, leaf.Fault cause
  | .value field test operand, cause, _, h => by
    rcases hv : operand.encode with e | v
    · rw [holds, hv] at h
      cases h
    · rw [holds, hv] at h
      exact ⟨_, List.mem_singleton.mpr rfl, fault_of_holdsFor hv h⟩
  | .fields lhs test rhs, cause, _, h => by
    rw [holds] at h
    cases h
  | .group filters .all, cause, hraw, h => by
    rw [holds] at h
    exact exists_fault_of_holdsAll filters hraw (Or.inl h)
  | .group filters .any, cause, hraw, h => by
    rw [holds] at h
    exact exists_fault_of_holdsAll filters hraw (Or.inr h)
  | .group _ (.custom _), _, _, h => by cases h
  | .raw query, _, hraw, _ => absurd (List.mem_singleton.mpr rfl) (hraw query)
  | .otherBackend _, _, _, h => by cases h

/-- Several filters, tried as all or as any, fail through the fault of a comparison in them. -/
private theorem exists_fault_of_holdsAll : ∀ (fs : List Filter) {cause : StoreError},
    (∀ query, .raw query ∉ leavesOfAll fs) →
      holdsAll mode d fs = .error cause ∨ holdsAny mode d fs = .error cause →
        ∃ leaf ∈ leavesOfAll fs, leaf.Fault cause
  | [], cause, _, h => by
    rcases h with h | h <;> cases h
  | f :: fs, cause, hraw, h => by
    obtain ⟨hrawFirst, hrawRest⟩ := raw_notMem_leavesOfAll_cons.mp hraw
    -- Either the first filter fails, or it is decided and leaves the failure to the others.
    have hsplit : holds mode d f = .error cause ∨
        holdsAll mode d fs = .error cause ∨ holdsAny mode d fs = .error cause := by
      rcases h with h | h
      · rw [holdsAll] at h
        rcases bind_eq_error_iff.mp h with hfirst | ⟨_ | _, -, h⟩
        · exact Or.inl hfirst
        · cases h
        · exact Or.inr (Or.inl h)
      · rw [holdsAny] at h
        rcases bind_eq_error_iff.mp h with hfirst | ⟨_ | _, -, h⟩
        · exact Or.inl hfirst
        · exact Or.inr (Or.inr h)
        · cases h
    rcases hsplit with hfirst | hrest
    · obtain ⟨leaf, hleaf, hfault⟩ := exists_fault_of_holds f hrawFirst hfirst
      exact ⟨leaf, by simp [leavesOfAll, hleaf], hfault⟩
    · obtain ⟨leaf, hleaf, hfault⟩ := exists_fault_of_holdsAll fs hrawRest hrest
      exact ⟨leaf, by simp [leavesOfAll, hleaf], hfault⟩

end

end Faults

/-- The query document of filters fails on a document through the fault of a comparison in them. -/
theorem exists_fault_of_satisfies {mode : Addressing} {fs : List Filter} {query d : Document}
    {cause : StoreError} (hquery : compileList mode fs = .ok query)
    (hplain : ∀ field ∈ fieldsOfAll fs, field.IsPlain mode)
    (hraw : ∀ query, .raw query ∉ leavesOfAll fs) (h : d.satisfies query = .error cause) :
    ∃ leaf ∈ leavesOfAll fs, leaf.Fault cause := by
  obtain ⟨queries, hqueries, heq⟩ := bind_eq_ok_iff.mp hquery
  obtain rfl := Except.ok.inj heq
  rw [satisfies_combineAll, (satisfies_compileEach d fs hqueries hplain).1] at h
  exact exists_fault_of_holdsAll d fs hraw (Or.inl h)

end Filter

/-! ### Commands -/

/-- A query document cannot be decided on some document, for a cause. -/
def Document.CanFail [RegexEngine] (query : Document) (cause : StoreError) : Prop :=
  ∃ d : Document, d.satisfies query = .error cause

section Commands

variable {query : Document} {cause : StoreError}

private theorem Document.canFail_of_selectFrom [RegexEngine] {ds : List Document}
    (h : selectFrom query ds = .error cause) : query.CanFail cause := by
  induction ds with
  | nil => cases h
  | cons d ds ih =>
    rw [selectFrom] at h
    rcases bind_eq_error_iff.mp h with hfirst | ⟨b, -, h⟩
    · exact ⟨d, hfirst⟩
    rcases bind_eq_error_iff.mp h with hrest | ⟨found, -, h⟩
    · exact ih hrest
    · cases h

private theorem Selection.canFail_of_apply [RegexEngine] {sel : Selection} {ds : List Document}
    (h : sel.apply ds = .error cause) : sel.filter.CanFail cause :=
  Document.canFail_of_selectFrom (apply_eq_error_iff.mp h)

/-- The stages of a read fail only through its filter. -/
private theorem Stage.canFail_of_stagesOf [RegexEngine] {collection : String → List Document}
    {schema : String} (hschema : isOperator schema = false) {ls : List Lookup} {sel : Selection}
    {listed : Document} {ds : List Document}
    (h : runAll collection (Pipeline.stagesOf schema ls sel listed) ds = .error cause) :
    sel.filter.CanFail cause := by
  obtain ⟨rows, hrows⟩ := exists_runAll_joins collection ls (ds.map (Document.under schema))
  rw [runAll_stagesOf collection hschema sel listed hrows] at h
  rcases hfound : runAll collection (Pipeline.selectionStages sel) rows with e | found
  · rw [hfound] at h
    obtain rfl := Except.error.inj h
    have hselect := (runAll_selectionStages_eq_error_iff collection).mp hfound
    exact Document.canFail_of_selectFrom hselect
  · rw [hfound] at h
    cases h

/-- **Reductions fail only through their filter**: what they group by and what they accumulate can
always be computed. -/
theorem Stage.canFail_of_reduction [RegexEngine] {collection : String → List Document}
    {accumulator path : String} {a : Accumulator}
    (ha : Accumulator.ofName? accumulator = some a) (hpath : isOperator path = false)
    {ds : List Document}
    (h : runAll collection (QueryPlan.reduction query accumulator path) ds = .error cause) :
    query.CanFail cause := by
  rw [runAll_reduction collection query ha hpath] at h
  rcases hselect : Document.selectFrom query ds with e | found <;> rw [hselect] at h
  · obtain rfl := Except.error.inj h
    exact Document.canFail_of_selectFrom hselect
  · cases h

namespace Collection

private theorem canFail_of_targets [RegexEngine] {statement : UpdateStatement} {i : Nat}
    {ds : List Document} (h : targets statement i ds = .error cause) :
    statement.filter.CanFail cause := by
  induction ds generalizing i with
  | nil => cases h
  | cons d ds ih =>
    rw [targets] at h
    rcases bind_eq_error_iff.mp h with hfirst | ⟨_ | _, -, h⟩
    · exact ⟨d, hfirst⟩
    · exact ih h
    · change (if statement.multi then _ else _) = _ at h
      split at h
      · rcases bind_eq_error_iff.mp h with hrest | ⟨rest, -, h⟩
        · exact ih hrest
        · cases h
      · cases h

private theorem canFail_of_remaining [RegexEngine] {limit : DeleteScope} {ds : List Document}
    (h : remaining query limit ds = .error cause) : query.CanFail cause := by
  induction ds with
  | nil => cases h
  | cons d ds ih =>
    unfold remaining at h
    rcases bind_eq_error_iff.mp h with hfirst | ⟨_ | _, -, h⟩
    · exact ⟨d, hfirst⟩
    · rcases bind_eq_error_iff.mp h with hrest | ⟨rest, -, h⟩
      · exact ih hrest
      · cases h
    · rcases limit
      · cases h
      · exact ih h

private theorem canFail_of_delete [RegexEngine] {limit : DeleteScope} {c : Collection}
    (h : (delete query limit c).1 = .error cause) : query.CanFail cause := by
  rw [delete] at h
  split at h
  · next cause' hremaining =>
    obtain rfl := Except.error.inj h
    exact canFail_of_remaining hremaining
  · cases h

private theorem isDuplicate_of_conflict? {name : String} {indexes : List IndexDefinition}
    {others : List Document} {d : Document} (h : conflict? name indexes others d = some cause) :
    cause.IsDuplicate := by
  have hidentity : ∀ c, identityConflict? name others d = some c → c.IsDuplicate := by
    intro c hc
    rw [identityConflict?] at hc
    split at hc
    · cases hc
    · split at hc
      · exact ⟨_, _, _, (Option.some.inj hc).symm⟩
      · cases hc
  rw [conflict?] at h
  split at h
  · next c hc =>
    obtain rfl := Option.some.inj h
    exact hidentity c hc
  · obtain ⟨index, -, hindex⟩ := List.exists_of_findSome?_eq_some h
    rw [indexConflict?] at hindex
    split at hindex
    · exact ⟨_, _, _, (Option.some.inj hindex).symm⟩
    · cases hindex

/-- An insertion is refused for a duplicate, or it acknowledges every document. -/
private theorem insertAll_reply (name : String) (fresh : Nat → ObjectId) (n : Nat)
    (ds : List Document) (c : Collection) :
    (insertAll name fresh n ds c).1 = .ok (n + ds.length) ∨
      ∃ cause, (insertAll name fresh n ds c).1 = .error cause ∧ cause.IsDuplicate := by
  induction ds generalizing n c with
  | nil => exact Or.inl rfl
  | cons d ds ih =>
    rw [insertAll]
    split
    · next cause hcause => exact Or.inr ⟨cause, rfl, isDuplicate_of_conflict? hcause⟩
    · have hlength : n + (d :: ds).length = n + 1 + ds.length := by
        rw [List.length_cons]
        omega
      rw [hlength]
      exact ih _ _

/-- Writing values at the paths of one document is refused only for a duplicate. -/
private theorem isDuplicate_of_updateAt {name : String} {fields : Document} {i : Nat}
    {reply : UpdateReply} {c : Collection}
    (h : (updateAt name [("$set", .document fields)] i reply c).1 = .error cause) :
    cause.IsDuplicate := by
  rw [updateAt] at h
  split at h
  · cases h
  · rw [Document.updatedBy_set] at h
    dsimp only at h
    split at h
    · cases h
    · split at h
      · next cause' hcause =>
        obtain rfl := Except.error.inj h
        exact isDuplicate_of_conflict? hcause
      · cases h

/-- Writing values at the paths of several documents is refused only for a duplicate. -/
private theorem isDuplicate_of_updateEach {name : String} {fields : Document} {positions : List Nat}
    {reply : UpdateReply} {c : Collection}
    (h : (updateEach name [("$set", .document fields)] positions reply c).1 = .error cause) :
    cause.IsDuplicate := by
  induction positions generalizing reply c with
  | nil => cases h
  | cons i positions ih =>
    rw [updateEach] at h
    split at h
    · next cause' c' hfirst =>
      obtain rfl := Except.error.inj h
      exact isDuplicate_of_updateAt (congrArg Prod.fst hfirst)
    · exact ih h

/-- An update whose statements write values at paths under one filter is refused for a duplicate, or
because the filter fails. -/
private theorem isDuplicate_or_canFail_of_updateAll [RegexEngine] {name : String}
    {statements : List UpdateStatement} {reply : UpdateReply} {c : Collection}
    (hstatements : ∀ statement ∈ statements, statement.filter = query ∧
      ∃ fields, statement.update = [("$set", .document fields)])
    (h : (updateAll name statements reply c).1 = .error cause) :
    cause.IsDuplicate ∨ query.CanFail cause := by
  induction statements generalizing reply c with
  | nil => cases h
  | cons statement statements ih =>
    obtain ⟨⟨hfilter, fields, hfields⟩, hrest⟩ := List.forall_mem_cons.mp hstatements
    rw [updateAll, hfields] at h
    split at h
    · next cause' htargets =>
      obtain rfl := Except.error.inj h
      exact Or.inr (hfilter ▸ canFail_of_targets htargets)
    · split at h
      · next cause' c' heach =>
        obtain rfl := Except.error.inj h
        exact Or.inl (isDuplicate_of_updateEach (congrArg Prod.fst heach))
      · exact ih hrest h

end Collection

end Commands

/-! ### Queries -/

/-- The catalog answers the command of a plan with a cause. -/
def QueryPlan.Refused [RegexEngine] (fresh : Nat → ObjectId) (cat : Catalog) (cause : StoreError) :
    QueryPlan → Prop
  | .insert command => (cat.insert fresh command).1 = .error cause
  | .find _ command => cat.find command = .error cause
  | .join command _ => cat.aggregate command = .error cause
  | .update command => (cat.update command).1 = .error cause
  | .delete command => (cat.delete command).1 = .error cause
  | .count command => cat.count command = .error cause
  | .joinCount command => cat.aggregate command = .error cause
  | .group command => cat.aggregate command = .error cause

namespace Query

variable [RegexEngine]

/-- What a store can refuse of an accepted query: a duplicate, or a comparison at fault. -/
def Refusal (q : Query) (cause : StoreError) : Prop :=
  cause.IsDuplicate ∨ ∃ leaf ∈ Filter.leavesOfAll q.filters, leaf.Fault cause

variable {q : Query} {cause : StoreError}
  (hraw : ∀ query, .raw query ∉ Filter.leavesOfAll q.filters)
  (hplain : ∀ field ∈ Filter.fieldsOfAll q.filters, ∀ mode, field.IsPlain mode)

include hraw hplain

/-- Where the filter of a query fails, a comparison in it is at fault. -/
private theorem refusal_of_canFail {mode : Addressing} {query : Document}
    (hquery : Filter.compileList mode q.filters = .ok query) (h : query.CanFail cause) :
    q.Refusal cause := by
  obtain ⟨d, hd⟩ := h
  exact Or.inr (Filter.exists_fault_of_satisfies hquery (fun f hf => hplain f hf mode) hraw hd)

/-- The pipeline of a query is refused only for what can be refused of the query. -/
private theorem refusal_of_pipeline (hschema : isOperator q.schema = false) {p : Pipeline}
    (hp : Pipeline.compile q = .ok p) {cat : Catalog}
    (h : cat.aggregate ⟨q.schema, p.stages⟩ = .error cause) : q.Refusal cause := by
  rw [Pipeline.compile_eq] at hp
  obtain ⟨ls, -, hp⟩ := bind_eq_ok_iff.mp hp
  obtain ⟨sel, hsel, hp⟩ := bind_eq_ok_iff.mp hp
  obtain ⟨listed, -, hp⟩ := bind_eq_ok_iff.mp hp
  obtain rfl := Except.ok.inj hp
  exact refusal_of_canFail hraw hplain (filter_of_selection hsel)
    (Stage.canFail_of_stagesOf hschema h)

/-- An aggregate is refused only for what can be refused of the query. -/
private theorem refusal_of_aggregate {a : Aggregate}
    (haggregate : ∀ field function, a = .field field function → field.IsPlain .plain)
    (hschema : isOperator q.schema = false) {plan : QueryPlan}
    (hplan : QueryPlan.ofAggregate q a = .ok plan) {fresh : Nat → ObjectId} {cat : Catalog}
    (h : plan.Refused fresh cat cause) : q.Refusal cause := by
  rcases a with ⟨field, function⟩ | text
  · by_cases hcount : function = .count
    · subst hcount
      rw [QueryPlan.ofAggregate] at hplan
      rcases hjoins : q.joins with _ | ⟨j, js⟩
      · rw [hjoins] at hplan
        obtain ⟨filter, hfilter, hplan⟩ := bind_eq_ok_iff.mp hplan
        obtain rfl := Except.ok.inj hplan
        rcases bind_eq_error_iff.mp h with hselect | ⟨found, -, h⟩
        · exact refusal_of_canFail hraw hplain hfilter (Document.canFail_of_selectFrom hselect)
        · cases h
      · rw [hjoins] at hplan
        obtain ⟨p, hp, hplan⟩ := bind_eq_ok_iff.mp hplan
        obtain rfl := Except.ok.inj hplan
        exact refusal_of_pipeline hraw hplain hschema hp h
    · obtain ⟨accumulator, a, path, filter, -, ha, hpath, hfilter, rfl⟩ :=
        QueryPlan.exists_reduction hcount hplan
      have hplainPath : isOperator path = false := haggregate field function rfl path hpath
      exact refusal_of_canFail hraw hplain hfilter (Stage.canFail_of_reduction ha hplainPath h)
  · cases hplan

/-- An input row is written by one statement, under the filter of the query. -/
private theorem refusal_of_update {filter : Document} {documents : List Document}
    (hfilter : Filter.compileList .plain q.filters = .ok filter) {cat : Catalog}
    (h : (cat.update ⟨q.schema,
      documents.map fun d => ⟨filter, [("$set", .document d)], true⟩⟩).1 = .error cause) :
    q.Refusal cause := by
  have hstatements : ∀ statement ∈ documents.map fun d =>
      UpdateStatement.mk filter [("$set", .document d)] true, statement.filter = filter ∧
        ∃ fields, statement.update = [("$set", .document fields)] := by
    intro statement hmem
    obtain ⟨d, -, rfl⟩ := List.mem_map.mp hmem
    exact ⟨rfl, d, rfl⟩
  rcases Collection.isDuplicate_or_canFail_of_updateAll hstatements h with hduplicate | hfails
  · exact Or.inl hduplicate
  · exact refusal_of_canFail hraw hplain hfilter hfails

end Query

/-! ### Executions -/

/-- An insertion into a catalog acknowledges every document, unless it is refused for a
duplicate. -/
private theorem Catalog.insert_reply (fresh : Nat → ObjectId) (command : InsertCommand)
    (cat : Catalog) :
    (cat.insert fresh command).1 = .ok command.documents.length ∨
      ∃ cause, (cat.insert fresh command).1 = .error cause ∧ cause.IsDuplicate := by
  have hreply := Collection.insertAll_reply command.collection fresh 0 command.documents
    (cat.collection command.collection)
  rwa [Nat.zero_add] at hreply

/-- **On a sound connection** a plan ends in no error but one that the catalog answers. -/
theorem Database.refused_of_run [RegexEngine] {db : Database} {s : Server} {cat : Catalog}
    {plan : QueryPlan} {e : Error} (hsound : db.connection.faults = none)
    (hcat : s.store.catalog? db.connection.handle = some cat)
    (h : (db.run plan s).1.ending = .error e) :
    ∃ cause, e = .store cause ∧
      plan.Refused (fun i => Server.identity (s.issued + i)) cat cause := by
  cases plan with
  | insert command =>
    rw [run_insert hcat hsound] at h
    rcases cat.insert_reply (fun i => Server.identity (s.issued + i)) command with
      hreply | ⟨cause, hreply, -⟩
    · rw [hreply] at h
      change (Outcome.ofInsert _ (.ok command.documents.length)).ending = _ at h
      rw [Outcome.ofInsert, if_pos rfl] at h
      cases h
    · rw [hreply] at h
      exact ⟨cause, (Except.error.inj h).symm, hreply⟩
  | find schema command =>
    rw [run_find hcat hsound] at h
    exact Outcome.ofRead_error h
  | join command layout =>
    rw [run_join hcat hsound] at h
    exact Outcome.ofRead_error h
  | update command =>
    rw [run_update hcat] at h
    rcases hreply : (cat.update command).1 with cause | reply
    · rw [hreply] at h
      exact ⟨cause, (Except.error.inj h).symm, hreply⟩
    · rw [hreply] at h
      cases h
  | delete command =>
    rw [run_delete hcat] at h
    exact Outcome.ofCount_error h
  | count command =>
    rw [run_count hcat] at h
    exact Outcome.ofCount_error h
  | joinCount command =>
    rw [run_joinCount hcat hsound] at h
    exact Outcome.ofReduced_error h
  | group command =>
    rw [run_group hcat hsound] at h
    exact Outcome.ofReduced_error h

/-- **What a store refuses of an accepted query** is a duplicate, or a comparison at fault. -/
theorem Query.refusal_of_refused [RegexEngine] {q : Query} {plan : QueryPlan}
    {fresh : Nat → ObjectId} {cat : Catalog} {cause : StoreError} (hplan : q.compile = .ok plan)
    (hraw : ∀ query, .raw query ∉ Filter.leavesOfAll q.filters)
    (hplain : ∀ field ∈ Filter.fieldsOfAll q.filters, ∀ mode, field.IsPlain mode)
    (haggregate : ∀ field function, q.action = .aggregate (.field field function) →
      field.IsPlain .plain)
    (hschema : isOperator q.schema = false) (h : plan.Refused fresh cat cause) :
    q.Refusal cause := by
  rw [Query.compile] at hplan
  rcases haction : q.action with _ | _ | _ | _ | a | name <;> rw [haction] at hplan
  case create =>
    obtain ⟨documents, -, hplan⟩ := bind_eq_ok_iff.mp hplan
    obtain rfl := Except.ok.inj hplan
    rcases cat.insert_reply fresh ⟨q.schema, documents⟩ with hreply | ⟨cause', hreply, hduplicate⟩
    · cases hreply.symm.trans h
    · obtain rfl := Except.error.inj (hreply.symm.trans h)
      exact Or.inl hduplicate
  case read =>
    rcases hjoins : q.joins with _ | ⟨j, js⟩
    · rw [QueryPlan.ofRead_plain hjoins] at hplan
      obtain ⟨sel, hsel, hplan⟩ := bind_eq_ok_iff.mp hplan
      obtain rfl := Except.ok.inj hplan
      have hfails : sel.apply (cat.collection q.schema).documents = .error cause :=
        (Catalog.find_command q.schema sel cat).symm.trans h
      exact refusal_of_canFail hraw hplain (filter_of_selection hsel)
        (Selection.canFail_of_apply hfails)
    · rw [QueryPlan.ofRead, hjoins] at hplan
      obtain ⟨p, hp, hplan⟩ := bind_eq_ok_iff.mp hplan
      obtain rfl := Except.ok.inj hplan
      exact refusal_of_pipeline hraw hplain hschema hp h
  case update =>
    obtain ⟨filter, hfilter, hplan⟩ := bind_eq_ok_iff.mp hplan
    obtain ⟨documents, -, hplan⟩ := bind_eq_ok_iff.mp hplan
    obtain rfl := Except.ok.inj hplan
    exact refusal_of_update hraw hplain hfilter h
  case delete =>
    obtain ⟨limit, -, hplan⟩ := bind_eq_ok_iff.mp hplan
    obtain ⟨filter, hfilter, hplan⟩ := bind_eq_ok_iff.mp hplan
    obtain rfl := Except.ok.inj hplan
    exact refusal_of_canFail hraw hplain hfilter (Collection.canFail_of_delete h)
  case aggregate =>
    have hfield : ∀ field function, a = .field field function → field.IsPlain .plain :=
      fun field function ha => haggregate field function (ha ▸ haction)
    exact refusal_of_aggregate hraw hplain hfield hschema hplan h
  case custom => cases hplan

/-- **The only errors of an accepted query** on a sound connection are those of a store that refuses
a duplicate, or a comparison at fault. -/
theorem Database.refusal_of_execute [RegexEngine] {db : Database} {s : Server} {cat : Catalog}
    {q : Query} {plan : QueryPlan} {e : Error} (hsound : db.connection.faults = none)
    (hcat : s.store.catalog? db.connection.handle = some cat) (hplan : q.compile = .ok plan)
    (hraw : ∀ query, .raw query ∉ Filter.leavesOfAll q.filters)
    (hplain : ∀ field ∈ Filter.fieldsOfAll q.filters, ∀ mode, field.IsPlain mode)
    (haggregate : ∀ field function, q.action = .aggregate (.field field function) →
      field.IsPlain .plain)
    (hschema : isOperator q.schema = false) (h : (db.execute q s).1.ending = .error e) :
    ∃ cause, e = .store cause ∧ q.Refusal cause := by
  rw [execute, hplan] at h
  obtain ⟨cause, hcause, hrefused⟩ := refused_of_run hsound hcat h
  exact ⟨cause, hcause,
    Query.refusal_of_refused hplan hraw hplain haggregate hschema hrefused⟩

/-- A read of the notes whose tag contains an opening bracket. -/
def bracketNotes : Query :=
  { Query.read "notes" with
    filters := [.containing (.single (.name "tag") "notes") .anywhere "("] }

/-- A store of one note. -/
def oneNote : Server :=
  ⟨⟨⟨[("notes", ⟨[[(idKey, .int32 1), ("tag", .string "x")]], []⟩)]⟩, [], []⟩, 0⟩

attribute [local instance] Runtime.engine

/-- The read of the notes with a bracket is accepted, and refused by the store: what it searches for
is no pattern. -/
theorem Database.refusal_of_execute_bracketNotes :
    ∃ command, bracketNotes.compile = .ok (.find "notes" command) ∧
      ((ofConnection .sound).execute bracketNotes oneNote).1.ending =
        .error (.store .invalidRegex) ∧
      bracketNotes.Refusal .invalidRegex := by
  have hraw : ∀ query, .raw query ∉ Filter.leavesOfAll bracketNotes.filters := by
    intro query hmem
    simp [bracketNotes, Filter.leavesOfAll, Filter.leaves, Filter.containing] at hmem
  have hplain : ∀ field ∈ Filter.fieldsOfAll bracketNotes.filters, ∀ mode, field.IsPlain mode := by
    intro field hfield mode
    obtain rfl : field = .single (.name "tag") "notes" := List.mem_singleton.mp hfield
    cases mode <;> decide
  have hsound : (ofConnection .sound).connection.faults = none := rfl
  have hcat : oneNote.store.catalog? (ofConnection .sound).connection.handle =
      some oneNote.store.committed := rfl
  have hending : ((ofConnection .sound).execute bracketNotes oneNote).1.ending =
      .error (.store .invalidRegex) := rfl
  obtain ⟨cause, hcause, hrefusal⟩ :=
    refusal_of_execute hsound hcat rfl hraw hplain nofun (by decide) hending
  obtain rfl := Error.store.inj hcause
  exact ⟨_, rfl, hending, hrefusal⟩

/-- **A comparison at fault is accepted, and always refused by the store.** A read by that
comparison alone fails on every collection that is not empty. -/
theorem Database.execute_of_fault [RegexEngine] {db : Database} {s : Server} {cat : Catalog}
    {q : Query} {plan : QueryPlan} {leaf : Filter} {cause : StoreError}
    (hsound : db.connection.faults = none)
    (hcat : s.store.catalog? db.connection.handle = some cat) (hread : q.action = .read)
    (hjoins : q.joins = []) (hfilters : q.filters = [leaf]) (hplan : q.compile = .ok plan)
    (hplain : ∀ field ∈ Filter.fieldsOf leaf, field.IsPlain .plain) (hfault : leaf.Fault cause)
    (hdocuments : (cat.collection q.schema).documents ≠ []) :
    (db.execute q s).1 = .failure (.store cause) := by
  rw [execute, hplan]
  rw [Query.compile_of_read hread, QueryPlan.ofRead_plain hjoins] at hplan
  obtain ⟨sel, hsel, hplan⟩ := bind_eq_ok_iff.mp hplan
  obtain rfl := Except.ok.inj hplan
  have hfilter := Query.filter_of_selection hsel
  rw [hfilters] at hfilter
  obtain ⟨queries, hqueries, hcombined⟩ := bind_eq_ok_iff.mp hfilter
  have hfails : ∀ d : Document, d.satisfies sel.filter = .error cause := by
    intro d
    have hleaf : ∀ field ∈ Filter.fieldsOfAll [leaf], field.IsPlain .plain := by
      simpa [Filter.fieldsOfAll] using hplain
    rw [← Except.ok.inj hcombined, Filter.satisfies_combineAll,
      (Filter.satisfies_compileEach d [leaf] hqueries hleaf).1, Filter.holdsAll,
      Filter.holds_of_fault d hfault]
    rfl
  have hfind : cat.find (sel.command q.schema) = .error cause := by
    rw [Catalog.find_command, Selection.apply_eq_error_iff]
    obtain ⟨d, ds, hcons⟩ := List.exists_cons_of_ne_nil hdocuments
    rw [hcons, Document.selectFrom, hfails]
    rfl
  change (db.run (.find q.schema (sel.command q.schema)) s).1 = _
  rw [run_find hcat hsound, hfind]
  rfl

/-- A read of the notes whose tag is one of a text, which is no list. -/
def scalarNotes : Query :=
  { Query.read "notes" with
    filters := [.value (.single (.name "tag") "notes") (.subset false) (.bind (.string "x"))] }

/-- **A query that cannot be run is accepted.** The read of the notes whose tag is one of a text
compiles, and the store refuses its operand. -/
theorem Database.execute_scalarNotes :
    ∃ command, scalarNotes.compile = .ok (.find "notes" command) ∧
      (∀ query, .raw query ∉ Filter.leavesOfAll scalarNotes.filters) ∧
      (∀ field ∈ Filter.fieldsOfAll scalarNotes.filters, ∀ mode, field.IsPlain mode) ∧
      isOperator scalarNotes.schema = false ∧
      ((ofConnection .sound).execute scalarNotes oneNote).1.ending =
        .error (.store (.invalidOperand "$in")) := by
  have hending : ((ofConnection .sound).execute scalarNotes oneNote).1.ending =
      .error (.store (.invalidOperand "$in")) := rfl
  refine ⟨_, rfl, fun query hmem => ?_, fun field hfield mode => ?_, by decide, hending⟩
  · simp [scalarNotes, Filter.leavesOfAll, Filter.leaves] at hmem
  · obtain rfl : field = .single (.name "tag") "notes" := List.mem_singleton.mp hfield
    cases mode <;> decide

end DocQuery
