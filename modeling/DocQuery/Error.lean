/-!
# Errors

`StoreError` is what a store reports while it evaluates a command, `Error` what a query can fail
with. The causes named `unsupported…`, `invalidIndexKey` and `rowShapeMismatch` arise while a
query is compiled, before any command reaches a store. Each cause has one text. Steps that may fail
are put one after another; `bind_eq_ok_iff` and `bind_eq_error_iff` take such a sequence apart, and
`exists_bind_eq_ok_iff` says under which condition it succeeds. A step for each element of a list is
`List.mapM` (`eq_mapM_of_cons`), which succeeds as `mapM_eq_ok_iff` says.
-/

namespace DocQuery

/-- Causes for which a store refuses a command. -/
inductive StoreError where
  /-- An operator or variable that the store does not know. -/
  | unknownOperator (name : String)
  /-- An operand of the wrong kind. -/
  | invalidOperand (operator : String)
  /-- A stage that the store does not know, or one that is not a single entry. -/
  | unsupportedStage (stage : String)
  /-- A pattern that is no regular expression. -/
  | invalidRegex
  /-- A write that would store a second document under a key of a unique index. -/
  | duplicateKey (collection index key : String)
  /-- An index of that name exists with another definition. -/
  | indexConflict (name : String)
  /-- A transaction was started inside another. -/
  | transactionInProgress
  /-- The transaction has already been committed or aborted. -/
  | transactionFinished
deriving DecidableEq

/-- Categories by which callers of other backends tell errors apart. -/
inductive ErrorCategory where
  /-- A command that the backend cannot read. -/
  | malformed
  /-- A write that breaks a constraint. -/
  | constraint
  /-- A connection that was closed. -/
  | disconnected
deriving DecidableEq

/-- Causes for which a query, a schema operation or a setting is refused. -/
inductive Error where
  /-- The field cannot be addressed in this context. -/
  | unsupportedField
  /-- The test does not apply to this kind of filter. -/
  | unsupportedFilter
  /-- The operand does not fit the filter's test. -/
  | unsupportedFilterValue
  | unsupportedCustomFilter
  | unsupportedCustomValue
  | unsupportedCustomSort
  | unsupportedCustomLimit
  | unsupportedCustomAggregate
  | unsupportedCustomAction
  /-- The join, or its condition, cannot be expressed by lookups. -/
  | unsupportedJoin
  /-- Documents have no defaults. -/
  | unsupportedDefaultValue
  /-- The constraint names something other than a key. -/
  | invalidIndexKey
  /-- An input row is not as long as the list of fields. -/
  | rowShapeMismatch (expected actual : Nat)
  /-- The store acknowledged fewer documents than were submitted. -/
  | insertFailed (expected acknowledged : Nat)
  | missingHosts
  | noTargetDatabase
  /-- The handle is not backed by the kind of store that was asked for. -/
  | wrongStore
  /-- The value read does not have the type asked for. -/
  | undecodable
  /-- The store refused a command. -/
  | store (cause : StoreError)
  /-- The connection string cannot be read. -/
  | malformedConnectionString
deriving DecidableEq

/-- The wording of a store's cause. -/
def StoreError.message : StoreError → String
  | .unknownOperator name => "unknown operator: " ++ name
  | .invalidOperand operator => "invalid operand for " ++ operator
  | .unsupportedStage stage => "unsupported pipeline stage: " ++ stage
  | .invalidRegex => "invalid regular expression"
  | .duplicateKey collection index key =>
    "duplicate key in " ++ collection ++ " index " ++ index ++ ": " ++ key
  | .indexConflict name => "index " ++ name ++ " already exists with different options"
  | .transactionInProgress => "transaction already in progress"
  | .transactionFinished => "transaction already committed or aborted"

namespace Error

/-- The wording of a cause. -/
def message : Error → String
  | .unsupportedField => "unsupported field"
  | .unsupportedFilter => "unsupported filter"
  | .unsupportedFilterValue => "unsupported filter value"
  | .unsupportedCustomFilter => "unsupported custom filter"
  | .unsupportedCustomValue => "unsupported custom value"
  | .unsupportedCustomSort => "unsupported custom sort"
  | .unsupportedCustomLimit => "unsupported custom limit"
  | .unsupportedCustomAggregate => "unsupported custom aggregate"
  | .unsupportedCustomAction => "unsupported custom action"
  | .unsupportedJoin => "unsupported join"
  | .unsupportedDefaultValue => "unsupported default value"
  | .invalidIndexKey => "invalid index key"
  | .rowShapeMismatch expected actual =>
    "input row has " ++ toString actual ++ " values for " ++ toString expected ++ " fields"
  | .insertFailed expected acknowledged =>
    "insert failed: " ++ toString acknowledged ++ " of " ++ toString expected ++
      " documents acknowledged"
  | .missingHosts => "no hosts specified"
  | .noTargetDatabase => "no target database specified"
  | .wrongStore => "database handle is not backed by a document store"
  | .undecodable => "decode error"
  | .store cause => "client error: " ++ cause.message
  | .malformedConnectionString => "client error: malformed connection string"

/-- The category of a cause. None has been assigned to any. -/
def category? (_ : Error) : Option ErrorCategory := none

end Error

/-! ### Steps that may fail -/

section Steps

variable {ε α β : Type} {x : Except ε α} {f : α → Except ε β}

/-- A step and what follows it succeed when both do. -/
theorem bind_eq_ok_iff {b : β} : (x >>= f) = .ok b ↔ ∃ a, x = .ok a ∧ f a = .ok b := by
  rcases x with e | a
  · exact ⟨nofun, fun ⟨_, h, _⟩ => nomatch h⟩
  · exact ⟨fun h => ⟨a, rfl, h⟩, fun ⟨_, ha, h⟩ => Except.ok.inj ha ▸ h⟩

/-- The first step that fails decides the error. -/
theorem bind_eq_error_iff {e : ε} :
    (x >>= f) = .error e ↔ x = .error e ∨ ∃ a, x = .ok a ∧ f a = .error e := by
  rcases x with e' | a
  · refine ⟨fun h => Or.inl (congrArg Except.error (Except.error.inj h)), fun h => ?_⟩
    rcases h with h | ⟨a, ha, -⟩
    · exact congrArg Except.error (Except.error.inj h)
    · cases ha
  · refine ⟨fun h => Or.inr ⟨a, rfl, h⟩, fun h => ?_⟩
    rcases h with h | ⟨a', ha, h⟩
    · cases h
    · exact Except.ok.inj ha ▸ h

/-- A step and one after it that succeeds under a condition, whatever the first step yields. -/
theorem exists_bind_eq_ok_iff {p : Prop} (hf : ∀ a, x = .ok a → ((∃ b, f a = .ok b) ↔ p)) :
    (∃ b, (x >>= f) = .ok b) ↔ (∃ a, x = .ok a) ∧ p := by
  constructor
  · rintro ⟨b, h⟩
    obtain ⟨a, ha, h⟩ := bind_eq_ok_iff.mp h
    exact ⟨⟨a, ha⟩, (hf a ha).mp ⟨b, h⟩⟩
  · rintro ⟨⟨a, ha⟩, hp⟩
    obtain ⟨b, hb⟩ := (hf a ha).mpr hp
    exact ⟨b, bind_eq_ok_iff.mpr ⟨a, ha, hb⟩⟩

/-- A step whose result is only put into a form succeeds when the step does. -/
theorem exists_bind_pure_eq_ok_iff {g : α → β} :
    (∃ b, (x >>= fun a => pure (g a)) = .ok b) ↔ ∃ a, x = .ok a := by
  have hform : ∀ a, x = .ok a → ((∃ b, (pure (g a) : Except ε β) = .ok b) ↔ True) :=
    fun a _ => iff_true_intro ⟨g a, rfl⟩
  rw [exists_bind_eq_ok_iff hform, and_true]

/-- A recursion that takes the same step for every element of a list is `List.mapM`. -/
theorem eq_mapM_of_cons {g : List α → Except ε (List β)} (hnil : g [] = .ok [])
    (hcons : ∀ a xs, g (a :: xs) = do let b ← f a; let ys ← g xs; pure (b :: ys)) (xs : List α) :
    g xs = xs.mapM f := by
  induction xs with
  | nil => exact hnil
  | cons a xs ih => rw [hcons, List.mapM_cons, ih]

section MapM

variable {xs : List α} {ys : List β}

/-- The same step for every element of a list yields the results of the elements, in order. -/
theorem mapM_eq_ok_iff : xs.mapM f = .ok ys ↔ xs.map f = ys.map .ok := by
  induction xs generalizing ys with
  | nil =>
    cases ys with
    | nil => exact iff_of_true rfl rfl
    | cons b ys => exact iff_of_false nofun nofun
  | cons a xs ih =>
    rw [List.mapM_cons, bind_eq_ok_iff]
    constructor
    · rintro ⟨b, hb, h⟩
      obtain ⟨rest, hrest, h⟩ := bind_eq_ok_iff.mp h
      obtain rfl := Except.ok.inj h
      rw [List.map_cons, List.map_cons, hb, ih.mp hrest]
    · intro h
      cases ys with
      | nil => cases h
      | cons b ys =>
        obtain ⟨hb, hys⟩ := List.cons.inj h
        exact ⟨b, hb, bind_eq_ok_iff.mpr ⟨ys, ih.mpr hys, rfl⟩⟩

theorem exists_result_of_mapM (h : xs.mapM f = .ok ys) {a : α} (ha : a ∈ xs) :
    ∃ b ∈ ys, f a = .ok b := by
  have hmem : f a ∈ ys.map .ok := mapM_eq_ok_iff.mp h ▸ List.mem_map_of_mem ha
  obtain ⟨b, hb, hab⟩ := List.mem_map.mp hmem
  exact ⟨b, hb, hab.symm⟩

theorem exists_source_of_mapM (h : xs.mapM f = .ok ys) {b : β} (hb : b ∈ ys) :
    ∃ a ∈ xs, f a = .ok b := by
  have hmem : .ok b ∈ xs.map f := mapM_eq_ok_iff.mp h ▸ List.mem_map_of_mem hb
  exact List.mem_map.mp hmem

/-- What the results show of a step is shown in the order of the elements. -/
theorem map_eq_map_of_mapM {γ : Type} {read : β → γ} {shown : α → γ} (h : xs.mapM f = .ok ys)
    (hstep : ∀ a ∈ xs, ∀ b, f a = .ok b → read b = shown a) : ys.map read = xs.map shown := by
  induction xs generalizing ys with
  | nil =>
    obtain rfl := Except.ok.inj h
    rfl
  | cons a xs ih =>
    rw [List.mapM_cons] at h
    obtain ⟨b, hb, h⟩ := bind_eq_ok_iff.mp h
    obtain ⟨rest, hrest, h⟩ := bind_eq_ok_iff.mp h
    obtain rfl := Except.ok.inj h
    obtain ⟨ha, hxs⟩ := List.forall_mem_cons.mp hstep
    rw [List.map_cons, List.map_cons, ha b hb, ih hrest hxs]

end MapM

/-- The same step for every element of a list succeeds when it does for each. -/
theorem exists_mapM_eq_ok_iff {xs : List α} :
    (∃ ys, xs.mapM f = .ok ys) ↔ ∀ a ∈ xs, ∃ b, f a = .ok b := by
  induction xs with
  | nil => exact ⟨fun _ => nofun, fun _ => ⟨[], rfl⟩⟩
  | cons a xs ih =>
    rw [List.mapM_cons, exists_bind_eq_ok_iff fun b _ => exists_bind_pure_eq_ok_iff, ih,
      List.forall_mem_cons]

end Steps

end DocQuery
