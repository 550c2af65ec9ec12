import DocQuery.Filter.Compile
import DocQuery.Matching
import DocQuery.Runtime.Regex.Engine

/-!
# Compiled filters mean what they say

`Filter.holds` is the meaning of a filter on a document, by recursion on the filter alone: a
comparison reads its fields and applies its test, a group tries its members from left to right, and
a raw query document is matched as it is. It knows no operators and no query documents but the raw
ones. The main theorem, `Filter.satisfies_compileList`, says that matching the query document of a
list of filters decides exactly this, with the same error where there is one.

The proof follows the two levels of a query document. `Filter.satisfies_compileValue` is about one
condition, whose operator is looked up by its name and applied, and `Filter.satisfies_compile`
is the induction over filters, in which a connective is matched member by member
(`Filter.satisfies_combineAll`, `Filter.satisfies_combineAny`) whatever the number of members.
-/

namespace DocQuery

/-! ### The meaning of a filter -/

/-- Whether a value has a property, or is an array with an element that has it. -/
def Value.someSubject (p : Value → Bool) : Option Value → Bool
  | none => false
  | some (.array items) => items.any p || p (.array items)
  | some v => p v

/-- Whether a value, or an element of it, is equal to another; where nothing is, null is. -/
def Value.isEqualTo (expected : Value) : Option Value → Bool
  | none => decide (expected = .null)
  | some v => someSubject (·.equal expected) (some v)

/-- Whether a value is a text that passes a test. -/
def Value.isTextWith (test : String → Bool) : Value → Bool
  | .string s => test s
  | _ => false

namespace FieldTest

/-- Whether values that compare in this way are in order: the first is greater, or less when
inverted, or equal where that is admitted. -/
def admits (inverse orEqual : Bool) : Ordering → Bool
  | .gt => !inverse
  | .lt => inverse
  | .eq => orEqual

/-- What a test says of a value and the one it is compared with. A list is needed to be one of, and
a text to be contained; the text is searched for as a pattern. Other tests say nothing. -/
def holdsFor [RegexEngine] (test : FieldTest) (value : Option Value) (expected : Value) :
    Except StoreError Bool :=
  match test, expected with
  | .equality inverse, expected => .ok (xor inverse (Value.isEqualTo expected value))
  | .order inverse orEqual, expected =>
    .ok (Value.someSubject
      (fun v => (v.compare? expected).any (admits inverse orEqual)) value)
  | .subset inverse, .array items =>
    .ok (xor inverse (items.any fun item => Value.isEqualTo item value))
  | .subset inverse, _ => .error (.invalidOperand (if inverse then "$nin" else "$in"))
  | .contains inverse location, .string needle => do
    let occurs ← RegexEngine.compile (location.pattern needle) ""
    pure (xor inverse (Value.someSubject (Value.isTextWith occurs) value))
  | .contains _ _, _ => .ok false
  | .custom _, _ => .ok false

/-- What a test says of two values of a document. -/
def holdsBetween (test : FieldTest) (l r : Value) : Bool :=
  match test with
  | .equality inverse => xor inverse (l.equal r)
  | .order inverse orEqual => admits inverse orEqual (Value.order (some l) (some r))
  | _ => false

end FieldTest

/-- The value of a document at a field. -/
def Document.at? (d : Document) (mode : Addressing) (field : Field) : Option Value :=
  match field.resolve mode with
  | .ok path => d.read? path
  | .error _ => none

namespace Filter

mutual

/-- **The meaning of a filter** on a document. Filters that do not compile hold for none. -/
def holds [RegexEngine] (mode : Addressing) (d : Document) : Filter → Except StoreError Bool
  | .value field test operand =>
    match operand.encode with
    | .ok expected => test.holdsFor (d.at? mode field) expected
    | .error _ => .ok false
  | .fields lhs test rhs =>
    .ok (test.holdsBetween ((d.at? mode lhs).getD .null) ((d.at? mode rhs).getD .null))
  | .group filters .all => holdsAll mode d filters
  | .group filters .any => holdsAny mode d filters
  | .group _ (.custom _) => .ok false
  | .raw query => d.satisfies query
  | .otherBackend _ => .ok false

/-- All filters hold; the first that does not, or fails, settles it. -/
def holdsAll [RegexEngine] (mode : Addressing) (d : Document) : List Filter → Except StoreError Bool
  | [] => .ok true
  | f :: fs => do
    let b ← holds mode d f
    if b then holdsAll mode d fs else pure false

/-- Some filter holds; the first that does, or fails, settles it. -/
def holdsAny [RegexEngine] (mode : Addressing) (d : Document) : List Filter → Except StoreError Bool
  | [] => .ok false
  | f :: fs => do
    let b ← holds mode d f
    if b then pure true else holdsAny mode d fs

end

mutual

/-- The fields that a filter reads. -/
def fieldsOf : Filter → List Field
  | .value field _ _ => [field]
  | .fields lhs _ rhs => [lhs, rhs]
  | .group filters _ => fieldsOfAll filters
  | .raw _ => []
  | .otherBackend _ => []

/-- The fields that several filters read. -/
def fieldsOfAll : List Filter → List Field
  | [] => []
  | f :: fs => fieldsOf f ++ fieldsOfAll fs

end

mutual

/-- The filters in a filter that are no groups. -/
def leaves : Filter → List Filter
  | .group filters _ => leavesOfAll filters
  | f => [f]

/-- The filters in several filters that are no groups. -/
def leavesOfAll : List Filter → List Filter
  | [] => []
  | f :: fs => leaves f ++ leavesOfAll fs

end

/-- What holds of the fields of several filters holds of those of each. -/
theorem forall_mem_fieldsOfAll_cons {p : Field → Prop} {f : Filter} {fs : List Filter} :
    (∀ field ∈ fieldsOfAll (f :: fs), p field) ↔
      (∀ field ∈ fieldsOf f, p field) ∧ ∀ field ∈ fieldsOfAll fs, p field :=
  List.forall_mem_append

/-- Several filters hold no raw query document if none of them does. -/
theorem raw_notMem_leavesOfAll_cons {f : Filter} {fs : List Filter} :
    (∀ query, .raw query ∉ leavesOfAll (f :: fs)) ↔
      (∀ query, .raw query ∉ leaves f) ∧ ∀ query, .raw query ∉ leavesOfAll fs := by
  simp only [leavesOfAll, List.mem_append, not_or, forall_and]

end Filter

/-- A field that does not resolve to a path with the sign of operators. -/
def Field.IsPlain (mode : Addressing) (field : Field) : Prop :=
  ∀ path, field.resolve mode = .ok path → isOperator path = false

instance (mode : Addressing) (field : Field) : Decidable (field.IsPlain mode) :=
  match h : field.resolve mode with
  | .ok path => decidable_of_iff (isOperator path = false) (by simp [Field.IsPlain, h])
  | .error _ => isTrue (by simp [Field.IsPlain, h])

/-! ### One condition -/

/-- A decision that is only passed on. -/
private theorem bind_ite_pure {ε : Type} (x : Except ε Bool) :
    (do let b ← x; if b then pure true else pure false) = x := by
  rcases x with e | (_ | _) <;> rfl

namespace Value

/-- The subjects of a condition are the value and its elements. -/
theorem any_subjects (p : Value → Bool) (value : Option Value) :
    (subjects value).any p = someSubject p value := by
  rcases value with _ | (_ | items | _) <;> simp [subjects, someSubject]

theorem equals_eq (value : Option Value) (expected : Value) :
    equals value expected = isEqualTo expected value := by
  rcases value with _ | v
  · rfl
  · exact any_subjects _ _

/-- A document of one operator is satisfied as its test says. -/
private theorem satisfies_operator [RegexEngine] {name : String} {o : ConditionOperator}
    (hname : ConditionOperator.ofName? name = some o) (hoperator : isOperator name = true)
    (value : Option Value) (operand : Value) :
    satisfies value (.document [(name, operand)]) =
      o.test name value operand [(name, operand)] := by
  have hoptions : name ≠ ConditionOperator.optionsName := by
    rintro rfl
    cases hname
  have hnegation : name ≠ ConditionOperator.negationName := by
    rintro rfl
    cases hname
  have hlists : Document.listsOperators [(name, operand)] = true := by
    simp [Document.listsOperators, Document.keys, hoperator]
  -- The operator is the only entry: no options beside it, and nothing left to pass after it.
  simp only [satisfies, hlists, if_true, passes, if_neg hoptions, if_neg hnegation, hname]
  exact bind_ite_pure _

/-- A negated condition is satisfied exactly when it is not, and fails as it does. -/
private theorem satisfies_negation [RegexEngine] (value : Option Value) (condition : Value) :
    satisfies value (.document [(ConditionOperator.negationName, condition)]) =
      (do let b ← satisfies value condition; pure !b) := by
  have hoperator : isOperator ConditionOperator.negationName = true := by decide
  have hlists : Document.listsOperators [(ConditionOperator.negationName, condition)] = true := by
    simp [Document.listsOperators, Document.keys, hoperator]
  have hoptions : ConditionOperator.negationName ≠ ConditionOperator.optionsName := by decide
  simp only [satisfies, hlists, if_true, passes, if_neg hoptions]
  rcases satisfies value condition with e | (_ | _) <;> rfl

end Value

namespace ConditionOperator

variable [RegexEngine]
variable (name : String) (value : Option Value) (operand : Value) (siblings : Document)

/-- The operators of equality say what the tests of equality say. -/
private theorem test_equality (inverse : Bool) :
    test (.comparison (if inverse then .notEqual else .equal)) name value operand siblings =
      (FieldTest.equality inverse).holdsFor value operand := by
  cases inverse <;> simp [test, Comparison.test, Value.equals_eq, FieldTest.holdsFor]

/-- An operator of order says what the test of order says that admits the same. -/
private theorem test_order {c : Comparison} {inverse orEqual : Bool}
    (hc : c ≠ .equal ∧ c ≠ .notEqual)
    (haccepts : ∀ o, c.accepts o = FieldTest.admits inverse orEqual o) :
    test (.comparison c) name value operand siblings =
      (FieldTest.order inverse orEqual).holdsFor value operand := by
  have hfun : c.accepts = FieldTest.admits inverse orEqual := funext haccepts
  simp only [FieldTest.holdsFor, ← hfun, ← Value.any_subjects, test]
  cases c <;> simp_all [Comparison.test]

/-- The operators of membership say what the tests of a subset say; their names stand in the error
when there is no list. -/
private theorem test_member (inverse : Bool) :
    test (.member inverse) (if inverse then "$nin" else "$in") value operand siblings =
      (FieldTest.subset inverse).holdsFor value operand := by
  have hequals : Value.equals value = fun item => Value.isEqualTo item value :=
    funext fun item => Value.equals_eq value item
  cases operand <;> simp only [test, FieldTest.holdsFor, hequals]
  cases inverse <;> simp

end ConditionOperator

/-- **The operator of a test** is one that conditions know, and says what the test says. -/
theorem FieldTest.operator_spec [RegexEngine] {test : FieldTest} {name : String}
    (h : test.operator = .ok name) :
    isOperator name = true ∧ ∃ o, ConditionOperator.ofName? name = some o ∧
      ∀ value operand siblings, o.test name value operand siblings =
        test.holdsFor value operand := by
  rcases test with inverse | ⟨inverse, orEqual⟩ | inverse | ⟨inverse, location⟩ | custom
  · obtain rfl : (if inverse then "$ne" else "$eq") = name := Except.ok.inj h
    refine ⟨by cases inverse <;> decide, .comparison (if inverse then .notEqual else .equal),
      by cases inverse <;> rfl, fun value operand siblings => ?_⟩
    exact ConditionOperator.test_equality _ value operand siblings inverse
  · cases inverse <;> cases orEqual <;> obtain rfl := Except.ok.inj h
    · exact ⟨by decide, .comparison .greater, rfl,
        fun v w e => ConditionOperator.test_order _ v w e (by decide) (by decide)⟩
    · exact ⟨by decide, .comparison .greaterOrEqual, rfl,
        fun v w e => ConditionOperator.test_order _ v w e (by decide) (by decide)⟩
    · exact ⟨by decide, .comparison .less, rfl,
        fun v w e => ConditionOperator.test_order _ v w e (by decide) (by decide)⟩
    · exact ⟨by decide, .comparison .lessOrEqual, rfl,
        fun v w e => ConditionOperator.test_order _ v w e (by decide) (by decide)⟩
  · obtain rfl : (if inverse then "$nin" else "$in") = name := Except.ok.inj h
    refine ⟨by cases inverse <;> decide, .member inverse, by cases inverse <;> rfl,
      fun value operand siblings => ?_⟩
    exact ConditionOperator.test_member value operand siblings inverse
  · cases h
  · cases h

/-- A condition with a pattern is satisfied by a text among the subjects in which it occurs. -/
private theorem Value.satisfies_containing [RegexEngine] (value : Option Value) (pattern : String) :
    satisfies value (.document [("$regex", .string pattern)]) =
      (RegexEngine.compile pattern "").map fun occurs =>
        someSubject (isTextWith occurs) value := by
  have hpattern : ConditionOperator.patternOf? (.string pattern) [("$regex", .string pattern)] =
      some (pattern, "") := by
    have hnone :
        Document.value? [("$regex", .string pattern)] ConditionOperator.optionsName = none := rfl
    simp only [ConditionOperator.patternOf?, hnone]
  have hmatch : ∀ occurs, hasText value occurs = someSubject (isTextWith occurs) value :=
    fun occurs => any_subjects (isTextWith occurs) value
  rw [satisfies_operator (o := .containing) rfl (by decide)]
  simp only [ConditionOperator.test, hpattern, hmatch]
  rcases RegexEngine.compile pattern "" with e | occurs <;> rfl

namespace Filter

/-- A query document of one condition is matched by the value at its path. -/
private theorem satisfies_path [RegexEngine] {path : String} (hpath : isOperator path = false)
    (condition : Value) (d : Document) :
    d.satisfies [(path, condition)] = condition.satisfies (d.read? path) := by
  have hne : ¬ isOperator path = true := by simp [hpath]
  unfold Document.satisfies
  rw [if_neg hne]
  exact bind_ite_pure _

/-- A query document of one expression is matched where the expression counts as true. -/
theorem satisfies_expression [RegexEngine] (condition : Value) (d : Document) :
    d.satisfies [("$expr", condition)] =
      (condition.evaluate d).map Value.countsAsTrue := by
  have hoperator : isOperator "$expr" = true := by decide
  unfold Document.satisfies
  rw [if_pos hoperator]
  rcases hv : condition.evaluate d with e | v
  · rfl
  · exact bind_ite_pure (.ok v.countsAsTrue)

/-- The query document of a test with an operator is one condition with that operator. -/
theorem compileValue_eq {path : String} {test : FieldTest} {operand : Operand}
    (htest : ∀ inverse location, test ≠ .contains inverse location) :
    compileValue path test operand =
      (do
        let operator ← test.operator
        let v ← operand.encode
        pure [(path, .document [(operator, v)])]) := by
  cases test with
  | contains inverse location => exact absurd rfl (htest inverse location)
  | _ => rfl

/-- **One comparison with an operand.** Matching its query document applies the test to the value at
the path. -/
theorem satisfies_compileValue [RegexEngine] {path : String} {test : FieldTest} {operand : Operand}
    {q : Document} (hpath : isOperator path = false) (hq : compileValue path test operand = .ok q)
    (d : Document) :
    d.satisfies q =
      match operand.encode with
      | .ok expected => test.holdsFor (d.read? path) expected
      | .error _ => .ok false := by
  -- Containment has no operator; it is a pattern, negated from outside when inverted.
  by_cases htest : ∃ inverse location, test = .contains inverse location
  · obtain ⟨inverse, location, rfl⟩ := htest
    rcases operand with s | _ | _ | _ | _ | _ | _ | _ <;> try cases hq
    rcases s with _ | _ | _ | _ | _ | needle | _ | _ | _ | _ <;> try cases hq
    rw [satisfies_path hpath]
    have hencode : Operand.encode (.bind (.string needle)) = .ok (.string needle) := rfl
    rw [hencode]
    cases inverse
    · rw [if_neg Bool.false_ne_true, Value.satisfies_containing]
      simp only [FieldTest.holdsFor, Bool.false_xor]
      rcases RegexEngine.compile (location.pattern needle) "" with e | occurs <;> rfl
    · rw [if_pos rfl]
      have hnot := Value.satisfies_negation (d.read? path)
        (.document [("$regex", .string (location.pattern needle))])
      rw [Value.satisfies_containing] at hnot
      refine hnot.trans ?_
      simp only [FieldTest.holdsFor, Bool.true_xor]
      rcases RegexEngine.compile (location.pattern needle) "" with e | occurs <;> rfl
  · have hne : ∀ inverse location, test ≠ .contains inverse location :=
      fun inverse location h => htest ⟨inverse, location, h⟩
    rw [compileValue_eq hne] at hq
    rcases hname : test.operator with e | name
    · rw [hname] at hq
      cases hq
    · rcases hv : operand.encode with e | v
      · rw [hname, hv] at hq
        cases hq
      · rw [hname, hv] at hq
        obtain rfl : [(path, Value.document [(name, v)])] = q := Except.ok.inj hq
        obtain ⟨hoperator, o, ho, htest⟩ := FieldTest.operator_spec hname
        rw [satisfies_path hpath, Value.satisfies_operator ho hoperator, htest]

end Filter

/-! ### Comparisons of two fields -/

/-- A text that names a path, which is none of an operator, reads the path. -/
theorem Document.evaluateText_path {path : String} (hpath : isOperator path = false)
    (d : Document) : d.evaluateText ("$" ++ path) = .ok ((d.read? path).getD .null) := by
  have hlist : ("$" ++ path).toList = '$' :: path.toList := String.toList_append
  have hhead : ∀ known, path.toList ≠ '$' :: known := by
    intro known h
    simp [isOperator, h] at hpath
  rw [evaluateText, hlist]
  -- A second dollar sign would name something other than a path; the path itself starts with none.
  split
  · next known h => exact absurd (List.cons.inj h).2 (hhead known)
  · next rest _ h => rw [← (List.cons.inj h).2, String.ofList_toList]
  · next h => exact absurd rfl (h path.toList)

/-- **The operator of a comparison of fields** is one that expressions know, and holds of two
values as the test does. -/
theorem FieldTest.fieldOperator_spec {test : FieldTest} {name : String}
    (h : test.fieldOperator = .ok name) :
    isOperator name = true ∧ ∃ c : Comparison,
      ExpressionOperator.ofName? name = some (.ofValues (.comparison c)) ∧
      ∀ v w, c.holds v w = test.holdsBetween v w := by
  rcases test with inverse | ⟨inverse, orEqual⟩ | inverse | ⟨inverse, location⟩ | custom
  · obtain rfl : (if inverse then "$ne" else "$eq") = name := Except.ok.inj h
    refine ⟨by cases inverse <;> decide, if inverse then .notEqual else .equal,
      by cases inverse <;> rfl, fun v w => ?_⟩
    cases inverse <;> simp [Comparison.holds, holdsBetween]
  · have haccepts : ∀ {c : Comparison}, (c ≠ .equal ∧ c ≠ .notEqual) →
        (∀ o, c.accepts o = admits inverse orEqual o) →
        ∀ v w, c.holds v w = (order inverse orEqual).holdsBetween v w := by
      intro c hc haccepts v w
      rw [holdsBetween, ← haccepts]
      cases c <;> simp_all [Comparison.holds]
    cases inverse <;> cases orEqual <;> obtain rfl := Except.ok.inj h
    · exact ⟨by decide, .greater, rfl, haccepts (by decide) (by decide)⟩
    · exact ⟨by decide, .greaterOrEqual, rfl, haccepts (by decide) (by decide)⟩
    · exact ⟨by decide, .less, rfl, haccepts (by decide) (by decide)⟩
    · exact ⟨by decide, .lessOrEqual, rfl, haccepts (by decide) (by decide)⟩
  · cases h
  · cases h
  · cases h

/-- A comparison within an expression holds of the values of its two operands. -/
theorem Value.evaluate_comparison {name : String} {c : Comparison} {s t : String}
    {d : Document} {v w : Value} (hoperator : isOperator name = true)
    (hname : ExpressionOperator.ofName? name = some (.ofValues (.comparison c)))
    (hv : d.evaluateText s = .ok v) (hw : d.evaluateText t = .ok w) :
    evaluate d (.document [(name, .array [.string s, .string t])]) = .ok (.bool (c.holds v w)) := by
  have hitems : evaluateItems d [.string s, .string t] = .ok [v, w] := by
    simp only [evaluateItems, evaluate, hv, hw]
    rfl
  simp only [evaluate, hoperator, if_true, hname, hitems]
  rfl

/-- A comparison with one operand is no expression, so under the name of an operator no condition
of a comparison is satisfied. -/
theorem Document.satisfies_operator_ne [RegexEngine] {name operator : String} {c : Comparison}
    (hname : isOperator name = true) (hoperator : isOperator operator = true)
    (hc : ExpressionOperator.ofName? operator = some (.ofValues (.comparison c))) (a : Atom)
    (d : Document) : d.satisfies [(name, .document [(operator, .atom a)])] ≠ .ok true := by
  have hexpression : ∃ e, (Value.document [(operator, .atom a)]).evaluate d = .error e := by
    rw [Value.evaluate, if_pos hoperator, hc]
    rcases hv : (Value.atom a).evaluate d with e | v
    · exact ⟨e, by simp only [hv]; rfl⟩
    · exact ⟨.invalidOperand operator, by simp only [hv]; rfl⟩
  obtain ⟨e, he⟩ := hexpression
  unfold satisfies
  rw [if_pos hname]
  rcases Clause.ofName? name with _ | (_ | inverse | _)
  · rintro ⟨⟩
  · rintro ⟨⟩
  · rintro ⟨⟩
  · simp only [he]
    rintro ⟨⟩

namespace Filter

/-- **One comparison of two fields.** Matching its query document compares the values that are read
at the two paths, where nothing is read as null. -/
theorem satisfies_compileFields [RegexEngine] {mode : Addressing} {lhs rhs : Field}
    {test : FieldTest} {q : Document} (hq : compileFields mode lhs test rhs = .ok q)
    (hlhs : lhs.IsPlain mode) (hrhs : rhs.IsPlain mode) (d : Document) :
    d.satisfies q =
      .ok (test.holdsBetween ((d.at? mode lhs).getD .null) ((d.at? mode rhs).getD .null)) := by
  rcases hname : test.fieldOperator with e | name
  · rw [compileFields, hname] at hq
    cases hq
  rcases hl : lhs.resolve mode with e | l
  · rw [compileFields, hname, hl] at hq
    cases hq
  rcases hr : rhs.resolve mode with e | r
  · rw [compileFields, hname, hl, hr] at hq
    cases hq
  rw [compileFields, hname, hl, hr] at hq
  obtain rfl := Except.ok.inj hq
  obtain ⟨hoperator, c, hc, hholds⟩ := FieldTest.fieldOperator_spec hname
  have hvalue := Value.evaluate_comparison hoperator hc
    (Document.evaluateText_path (hlhs l hl) d) (Document.evaluateText_path (hrhs r hr) d)
  rw [satisfies_expression, hvalue, hholds]
  simp only [Document.at?, hl, hr]
  rfl

/-! ### Connectives -/

/-- Query documents as members of a clause are all documents. -/
private theorem all_isDocument (qs : List Document) :
    (qs.map Value.document).all Value.isDocument = true := by
  simp [Value.isDocument]

/-- **Members that must all hold.** They are tried from left to right, whether there are none, one
or several. -/
theorem satisfies_combineAll [RegexEngine] (d : Document) (qs : List Document) :
    d.satisfies (combineAll qs) = d.satisfiesAll (qs.map .document) := by
  rcases qs with _ | ⟨q, _ | ⟨q', qs⟩⟩
  · rfl
  · exact (bind_ite_pure (d.satisfies q)).symm
  · have hoperator : isOperator "$and" = true := by decide
    have hmembers := all_isDocument (q :: q' :: qs)
    change d.satisfies [("$and", .array ((q :: q' :: qs).map .document))] = _
    unfold Document.satisfies
    rw [if_pos hoperator]
    simp only [Clause.ofName?, hmembers, if_true]
    exact bind_ite_pure _

/-- **Members of which one must hold.** They are tried from left to right, whether there are none,
one or several. -/
theorem satisfies_combineAny [RegexEngine] (d : Document) (qs : List Document) :
    d.satisfies (combineAny qs) = d.satisfiesAny (qs.map .document) := by
  rcases qs with _ | ⟨q, _ | ⟨q', qs⟩⟩
  · rfl
  · simp only [combineAny, List.map, Document.satisfiesAny, Document.satisfiesMember]
    rcases d.satisfies q with e | (_ | _) <;> rfl
  · have hoperator : isOperator "$or" = true := by decide
    have hmembers := all_isDocument (q :: q' :: qs)
    change d.satisfies [("$or", .array ((q :: q' :: qs).map .document))] = _
    unfold Document.satisfies
    rw [if_pos hoperator]
    simp only [Clause.ofName?, hmembers, if_true]
    rcases d.satisfiesAny ((q :: q' :: qs).map Value.document) with e | (_ | _) <;> rfl

/-! ### Filters -/

/-- The query documents of a list are those of its first filter and of the others. -/
theorem compileEach_cons {mode : Addressing} {f : Filter} {fs : List Filter}
    {qs : List Document} (h : compileEach mode (f :: fs) = .ok qs) :
    ∃ q rest, compile mode f = .ok q ∧ compileEach mode fs = .ok rest ∧ qs = q :: rest := by
  rw [compileEach] at h
  obtain ⟨q, hq, h⟩ := bind_eq_ok_iff.mp h
  obtain ⟨rest, hrest, h⟩ := bind_eq_ok_iff.mp h
  exact ⟨q, rest, hq, hrest, (Except.ok.inj h).symm⟩

variable {mode : Addressing} (d : Document)

mutual

/-- **Compiled filters mean what they say.** By induction on the filter: matching its query document
decides its meaning. -/
theorem satisfies_compile [RegexEngine] : ∀ (f : Filter) {q : Document}, compile mode f = .ok q →
    (∀ field ∈ fieldsOf f, field.IsPlain mode) → d.satisfies q = holds mode d f
  | .value field test operand, q, hq, hplain => by
    rcases hpath : field.resolve mode with e | path
    · rw [compile, hpath] at hq
      cases hq
    · rw [compile, hpath] at hq
      have hread : d.at? mode field = d.read? path := by rw [Document.at?, hpath]
      have hfield : field.IsPlain mode := hplain field (by simp [fieldsOf])
      rw [holds, hread]
      exact satisfies_compileValue (hfield path hpath) hq d
  | .fields lhs test rhs, q, hq, hplain => by
    rw [holds]
    exact satisfies_compileFields (by rwa [compile] at hq) (hplain lhs (by simp [fieldsOf]))
      (hplain rhs (by simp [fieldsOf])) d
  | .group filters .all, q, hq, hplain => by
    rcases hqs : compileEach mode filters with e | qs
    · rw [compile, hqs] at hq
      cases hq
    · rw [compile, hqs] at hq
      obtain rfl := Except.ok.inj hq
      rw [satisfies_combineAll, holds]
      exact (satisfies_compileEach filters hqs (by rwa [fieldsOf] at hplain)).1
  | .group filters .any, q, hq, hplain => by
    rcases hqs : compileEach mode filters with e | qs
    · rw [compile, hqs] at hq
      cases hq
    · rw [compile, hqs] at hq
      obtain rfl := Except.ok.inj hq
      rw [satisfies_combineAny, holds]
      exact (satisfies_compileEach filters hqs (by rwa [fieldsOf] at hplain)).2
  | .group _ (.custom _), q, hq, _ => by cases hq
  | .raw query, q, hq, _ => by
    obtain rfl := Except.ok.inj hq
    rfl
  | .otherBackend _, q, hq, _ => by cases hq

/-- Query documents of several filters, tried as all or as any, decide their meanings in turn. -/
theorem satisfies_compileEach [RegexEngine] : ∀ (fs : List Filter) {qs : List Document},
    compileEach mode fs = .ok qs → (∀ field ∈ fieldsOfAll fs, field.IsPlain mode) →
      d.satisfiesAll (qs.map .document) = holdsAll mode d fs ∧
      d.satisfiesAny (qs.map .document) = holdsAny mode d fs
  | [], qs, hqs, _ => by
    obtain rfl := Except.ok.inj hqs
    exact ⟨rfl, rfl⟩
  | f :: fs, qs, hqs, hplain => by
    obtain ⟨q, rest, hq, hrest, rfl⟩ := compileEach_cons hqs
    have hfirst := satisfies_compile f hq
      fun field hfield => hplain field (by simp [fieldsOfAll, hfield])
    obtain ⟨hall, hany⟩ := satisfies_compileEach fs hrest
      fun field hfield => hplain field (by simp [fieldsOfAll, hfield])
    refine ⟨?_, ?_⟩
    · rw [List.map_cons, Document.satisfiesAll, Document.satisfiesMember, hfirst, hall, holdsAll]
    · rw [List.map_cons, Document.satisfiesAny, Document.satisfiesMember, hfirst, hany, holdsAny]

end

/-- **A list of filters means what it says.** Where the list compiles and reads no path that starts
with the sign of operators, matching its query document returns what the filters mean when they are
tried from left to right, a value or an error. -/
theorem satisfies_compileList [RegexEngine] {fs : List Filter} {q : Document}
    (hq : compileList mode fs = .ok q) (hplain : ∀ field ∈ fieldsOfAll fs, field.IsPlain mode) :
    d.satisfies q = holdsAll mode d fs := by
  rcases hqs : compileEach mode fs with e | qs
  · rw [compileList, hqs] at hq
    cases hq
  · rw [compileList, hqs] at hq
    obtain rfl := Except.ok.inj hq
    rw [satisfies_combineAll]
    exact (satisfies_compileEach d fs hqs hplain).1

/-- Filters with an empty group, a group of one member and a group within a group. -/
def nested : List Filter :=
  let left := Field.single (.name "left") "notes"
  let right := Field.single (.name "right") "notes"
  [.allOf [],
    .anyOf [.value left (.subset true) (.array [.null]), .fields left (.order true false) right],
    .anyOf [.allOf [.eq right .null, .ne left .null]]]

attribute [local instance] Runtime.engine

/-- Nested filters on a document that has one of two fields. -/
theorem satisfies_compileList_nested :
    ∃ q, compileList .plain nested = .ok q ∧
      (∀ field ∈ fieldsOfAll nested, field.IsPlain .plain) ∧
      Document.satisfies [("left", .int32 1)] q = holdsAll .plain [("left", .int32 1)] nested ∧
      holdsAll .plain [("left", .int32 1)] nested = .ok true := by
  have hplain : ∀ field ∈ fieldsOfAll nested, field.IsPlain .plain := by decide
  exact ⟨_, rfl, hplain, satisfies_compileList _ rfl hplain, rfl⟩

end Filter

end DocQuery
