import DocQuery.Proofs.Coercion
import DocQuery.Proofs.InputRows

/-!
# Supported queries

Which queries have a plan can be told from the query alone, without looking at the plan:
`Query.IsSupported` is a table with a line for each action. What the lines speak of is defined for
each part of a query beside the lemma that it is what compiling that part asks for: fields are
addressable, filters and sorts are acceptable in the addressing that they are compiled for, joins
are acceptable, operands coercible, and the first limit and the first offset are counts.

`Query.exists_plan_iff_isSupported` says that a query has a plan exactly if it is supported. It is
about queries with at most one identity among their fields; of several, only the first is written,
and the operands of the others are not looked at.
-/

namespace DocQuery

/-! ### Fields -/

namespace FieldKey

/-- The keys that a key is put together from. -/
def parts : FieldKey → List FieldKey
  | .prefixed outer inner => outer.parts ++ inner.parts
  | k => [k]

/-- No part of it is the place where aggregates report their value. -/
def IsNamed (k : FieldKey) : Prop := .aggregate ∉ k.parts

private theorem isNamed_prefixed {outer inner : FieldKey} :
    (prefixed outer inner).IsNamed ↔ outer.IsNamed ∧ inner.IsNamed := by
  rw [IsNamed, parts, List.mem_append, not_or, IsNamed, IsNamed]

/-- A key has a name unless an aggregate reports its value there. -/
theorem exists_resolve_eq_ok_iff (k : FieldKey) : (∃ name, k.resolve = .ok name) ↔ k.IsNamed := by
  induction k with
  | prefixed outer inner ihouter ihinner =>
    rw [resolve, exists_bind_eq_ok_iff fun a _ => exists_bind_pure_eq_ok_iff, ihouter, ihinner,
      isNamed_prefixed]
  | id => simp [resolve, IsNamed, parts]
  | name s => simp [resolve, IsNamed, parts]
  | aggregate => simp [resolve, IsNamed, parts]

theorem exists_resolveAll_eq_ok_iff (keys : List FieldKey) :
    (∃ names, resolveAll keys = .ok names) ↔ ∀ k ∈ keys, k.IsNamed := by
  rw [resolveAll_eq_mapM, exists_mapM_eq_ok_iff]
  exact forall₂_congr fun k _ => k.exists_resolve_eq_ok_iff

end FieldKey

namespace Field

/-- Its keys have names, and where it is qualified it is in no namespace. -/
def IsAddressable (mode : Addressing) : Field → Prop
  | .path keys _ => ∀ k ∈ keys, k.IsNamed
  | .extended keys _ space => (∀ k ∈ keys, k.IsNamed) ∧ (mode = .qualified → space = none)
  | .custom _ => False

theorem exists_resolve_eq_ok_iff (mode : Addressing) (f : Field) :
    (∃ path, f.resolve mode = .ok path) ↔ f.IsAddressable mode := by
  cases f with
  | path keys schema =>
    cases mode <;>
      exact exists_bind_pure_eq_ok_iff.trans (FieldKey.exists_resolveAll_eq_ok_iff keys)
  | extended keys schema space =>
    cases mode with
    | plain =>
      refine (exists_bind_pure_eq_ok_iff.trans (FieldKey.exists_resolveAll_eq_ok_iff keys)).trans ?_
      simp [IsAddressable]
    | qualified =>
      cases space with
      | none =>
        refine
          (exists_bind_pure_eq_ok_iff.trans (FieldKey.exists_resolveAll_eq_ok_iff keys)).trans ?_
        simp [IsAddressable]
      | some space => simp [resolve, qualifiedPath, IsAddressable]
  | custom text => cases mode <;> exact ⟨nofun, nofun⟩

end Field

/-! ### Filters -/

/-- The operand is one that the test can be made with: a text to be contained, or a value. -/
def FieldTest.Takes : FieldTest → Operand → Prop
  | .contains _ _, operand => ∃ needle, operand = .bind (.string needle)
  | .custom _, _ => False
  | _, operand => operand.IsCoercible

/-- The test is one that two fields can be compared with. -/
def FieldTest.IsFieldTest : FieldTest → Prop
  | .equality _ => True
  | .order _ _ => True
  | _ => False

theorem FieldTest.exists_fieldOperator_eq_ok_iff (test : FieldTest) :
    (∃ operator, test.fieldOperator = .ok operator) ↔ test.IsFieldTest := by
  cases test with
  | equality inverse => simp [fieldOperator, operator, IsFieldTest]
  | order inverse orEqual => cases inverse <;> cases orEqual <;>
      simp [fieldOperator, operator, IsFieldTest]
  | _ => simp [fieldOperator, IsFieldTest]

namespace Filter

/-- It can be compiled for an addressing: its fields are addressable, its tests fit what they are
made with, and its groups are of all or of any. Query documents are taken as they are. -/
inductive IsAcceptable (mode : Addressing) : Filter → Prop
  | value {field : Field} {test : FieldTest} {operand : Operand}
      (hfield : field.IsAddressable mode) (htest : test.Takes operand) :
      IsAcceptable mode (.value field test operand)
  | fields {lhs rhs : Field} {test : FieldTest} (htest : test.IsFieldTest)
      (hlhs : lhs.IsAddressable mode) (hrhs : rhs.IsAddressable mode) :
      IsAcceptable mode (.fields lhs test rhs)
  | all {filters : List Filter} (hfilters : ∀ f ∈ filters, IsAcceptable mode f) :
      IsAcceptable mode (.group filters .all)
  | any {filters : List Filter} (hfilters : ∀ f ∈ filters, IsAcceptable mode f) :
      IsAcceptable mode (.group filters .any)
  | raw (document : Document) : IsAcceptable mode (.raw document)

theorem exists_compileValue_eq_ok_iff (path : String) (test : FieldTest) (operand : Operand) :
    (∃ d, compileValue path test operand = .ok d) ↔ test.Takes operand := by
  have hoperator : ∀ operator : Except Error String, (∃ name, operator = .ok name) →
      ((∃ d, (do let name ← operator; let v ← operand.encode; pure [(path, .document [(name, v)])] :
        Except Error Document) = .ok d) ↔ operand.IsCoercible) := by
    intro operator hoperator
    rw [exists_bind_eq_ok_iff fun name _ => exists_bind_pure_eq_ok_iff, and_iff_right hoperator,
      operand.exists_encode_eq_ok_iff]
  cases test with
  | contains inverse location =>
    rw [FieldTest.Takes]
    constructor
    -- Texts have a line of their own; every other operand comes to the last one, which refuses.
    · rintro ⟨d, h⟩
      by_contra hnone
      rw [compileValue] at h
      · cases h
      · exact fun needle hneedle => hnone ⟨needle, hneedle⟩
    · rintro ⟨needle, rfl⟩
      exact ⟨_, rfl⟩
  | equality inverse => exact hoperator _ ⟨_, rfl⟩
  | order inverse orEqual =>
    exact hoperator _ (by cases inverse <;> cases orEqual <;> exact ⟨_, rfl⟩)
  | subset inverse => exact hoperator _ ⟨_, rfl⟩
  | custom name => exact ⟨nofun, nofun⟩

/-- A filter has a query document exactly if it is acceptable. -/
theorem exists_compile_eq_ok_iff (mode : Addressing) (f : Filter) :
    (∃ d, f.compile mode = .ok d) ↔ f.IsAcceptable mode := by
  induction f using Filter.induction with
  | value field test operand =>
    rw [compile, exists_bind_eq_ok_iff fun path _ =>
      exists_compileValue_eq_ok_iff path test operand, field.exists_resolve_eq_ok_iff]
    constructor
    · exact fun h => .value h.1 h.2
    · rintro (⟨hfield, htest⟩ | _)
      exact ⟨hfield, htest⟩
  | fields lhs test rhs =>
    rw [compile, compileFields, exists_bind_eq_ok_iff fun operator _ =>
      exists_bind_eq_ok_iff fun l _ => exists_bind_pure_eq_ok_iff,
      test.exists_fieldOperator_eq_ok_iff, lhs.exists_resolve_eq_ok_iff,
      rhs.exists_resolve_eq_ok_iff]
    constructor
    · exact fun h => .fields h.1 h.2.1 h.2.2
    · rintro (_ | ⟨htest, hlhs, hrhs⟩)
      exact ⟨htest, hlhs, hrhs⟩
  | group filters relation ih =>
    have heach : (∃ ds, compileEach mode filters = .ok ds) ↔
        ∀ f ∈ filters, f.IsAcceptable mode := by
      rw [compileEach_eq_mapM, exists_mapM_eq_ok_iff]
      exact forall₂_congr ih
    cases relation with
    | all =>
      rw [compile, exists_bind_pure_eq_ok_iff, heach]
      constructor
      · exact .all
      · rintro (_ | _ | hfilters)
        exact hfilters
    | any =>
      rw [compile, exists_bind_pure_eq_ok_iff, heach]
      constructor
      · exact .any
      · rintro (_ | _ | _ | hfilters)
        exact hfilters
    | custom name => exact iff_of_false (by rintro ⟨d, h⟩; cases h) (by rintro ⟨⟩)
  | raw document => exact ⟨fun _ => .raw document, fun _ => ⟨document, rfl⟩⟩
  | otherBackend text => exact iff_of_false (by rintro ⟨d, h⟩; cases h) (by rintro ⟨⟩)

theorem exists_compileList_eq_ok_iff (mode : Addressing) (filters : List Filter) :
    (∃ d, compileList mode filters = .ok d) ↔ ∀ f ∈ filters, f.IsAcceptable mode := by
  rw [compileList, exists_bind_pure_eq_ok_iff, compileEach_eq_mapM, exists_mapM_eq_ok_iff]
  exact forall₂_congr fun f _ => f.exists_compile_eq_ok_iff mode

end Filter

/-! ### Sorts -/

/-- A direction that stores know, which may also be given as an integer of either width. -/
def SortDirection.IsKnown : SortDirection → Prop
  | .custom v => v ∈ [Value.int32 1, .int32 (-1), .int64 1, .int64 (-1)]
  | _ => True

theorem Direction.exists_ofValue?_eq_some_iff (v : Value) :
    (∃ o, ofValue? v = some o) ↔ v ∈ [Value.int32 1, .int32 (-1), .int64 1, .int64 (-1)] := by
  constructor
  · rintro ⟨o, h⟩
    unfold ofValue? at h
    split at h
    · split_ifs at h with hone hminus <;> simp [*]
    · split_ifs at h with hone hminus <;> simp [*]
    · cases h
  · intro h
    simp only [List.mem_cons, List.not_mem_nil, or_false] at h
    rcases h with rfl | rfl | rfl | rfl <;> exact ⟨_, rfl⟩

theorem SortDirection.exists_resolve_eq_ok_iff (direction : SortDirection) :
    (∃ o, direction.resolve = .ok o) ↔ direction.IsKnown := by
  cases direction with
  | ascending => exact iff_of_true ⟨_, rfl⟩ trivial
  | descending => exact iff_of_true ⟨_, rfl⟩ trivial
  | custom v =>
    rw [resolve, IsKnown, ← Direction.exists_ofValue?_eq_some_iff]
    cases Direction.ofValue? v <;> simp

namespace SortBy

/-- It can be compiled for an addressing: its field is addressable and its direction known. -/
def IsAcceptable (mode : Addressing) : SortBy → Prop
  | .field f direction => f.IsAddressable mode ∧ direction.IsKnown
  | .custom _ => False

theorem exists_keys_eq_ok_iff (mode : Addressing) (sorts : List SortBy) :
    (∃ ks, keys mode sorts = .ok ks) ↔ ∀ s ∈ sorts, s.IsAcceptable mode := by
  induction sorts with
  | nil => exact ⟨fun _ => nofun, fun _ => ⟨[], rfl⟩⟩
  | cons s rest ih =>
    cases s with
    | field f direction =>
      rw [keys, exists_bind_eq_ok_iff fun path _ =>
        exists_bind_eq_ok_iff fun order _ => exists_bind_pure_eq_ok_iff,
        f.exists_resolve_eq_ok_iff, direction.exists_resolve_eq_ok_iff, ih, List.forall_mem_cons,
        ← and_assoc]
      rfl
    | custom text => exact ⟨nofun, fun h => (h _ List.mem_cons_self).elim⟩

theorem exists_compile_eq_ok_iff (mode : Addressing) (sorts : List SortBy) :
    (∃ ks, compile mode sorts = .ok ks) ↔ ∀ s ∈ sorts, s.IsAcceptable mode := by
  rw [compile, exists_bind_pure_eq_ok_iff, exists_keys_eq_ok_iff]

end SortBy

/-! ### Limits -/

/-- The first limit of a list, if there is one, is a number. -/
def Limit.StartsWithCount (limits : List Limit) : Prop := ∀ l ∈ limits.head?, ∃ n, l = .count n

theorem Limit.exists_first_eq_ok_iff (limits : List Limit) :
    (∃ n, first limits = .ok n) ↔ StartsWithCount limits := by
  rcases limits with _ | ⟨_ | _, _⟩ <;> simp [first, StartsWithCount]

theorem QueryPlan.exists_deleteScope_eq_ok_iff (limits : List Limit) :
    (∃ scope, deleteScope limits = .ok scope) ↔ ∀ l ∈ limits.head?, l = .count 1 := by
  constructor
  · rintro ⟨scope, h⟩ l hl
    unfold deleteScope at h
    split at h
    · cases hl
    · exact (Option.mem_some.mp hl).symm
    · cases h
  · intro h
    rcases limits with _ | ⟨l, limits⟩
    · exact ⟨.all, rfl⟩
    · obtain rfl := h l rfl
      exact ⟨.one, rfl⟩

/-! ### Joins -/

namespace Join

/-- The join asks for the equality of a foreign and a local field, and nothing else. Where the
fields stand in a condition, the foreign one is owned by the key of the join, and the left one if
both are. -/
inductive Links : Join → JoinKind → Field → Field → Prop
  | equality {schema : String} {alias? : Option String} {kind : JoinKind}
      {foreignField localField : Field} :
      Links (.equality schema alias? kind foreignField localField) kind foreignField localField
  | left {schema : String} {alias? : Option String} {kind : JoinKind} {lhs rhs : Field}
      (hlhs : lhs.schema? = some (alias?.getD schema)) :
      Links (.advanced schema alias? kind [.fields lhs (.equality false) rhs]) kind lhs rhs
  | right {schema : String} {alias? : Option String} {kind : JoinKind} {lhs rhs : Field}
      (hlhs : lhs.schema? ≠ some (alias?.getD schema))
      (hrhs : rhs.schema? = some (alias?.getD schema)) :
      Links (.advanced schema alias? kind [.fields lhs (.equality false) rhs]) kind rhs lhs

/-- It can be run by lookups: it links two fields, a local one of the row and one of the foreign
documents, and it is an inner or a left join. -/
def IsAcceptable (j : Join) : Prop :=
  ∃ kind foreignField localField, j.Links kind foreignField localField ∧
    (kind = .inner ∨ kind = .left) ∧
    localField.IsAddressable .qualified ∧ foreignField.IsAddressable .plain

private theorem links_of_link {j : Join} {l : Link} (h : j.link = .ok l) :
    j.Links l.kind l.foreignField l.localField := by
  unfold link at h
  split at h
  · obtain rfl := Except.ok.inj h
    exact .equality
  · obtain ⟨⟨foreignField, localField⟩, horient, h⟩ := bind_eq_ok_iff.mp h
    obtain rfl := Except.ok.inj h
    rw [orient] at horient
    split_ifs at horient with hlhs hrhs
    · cases horient
      exact .left hlhs
    · cases horient
      exact .right hlhs hrhs
  · cases h
  · cases h

private theorem exists_link_of_links {j : Join} {kind : JoinKind} {foreignField localField : Field}
    (h : j.Links kind foreignField localField) :
    ∃ schema key, j.link = .ok ⟨schema, key, kind, foreignField, localField⟩ := by
  cases h with
  | equality => exact ⟨_, _, rfl⟩
  | left hlhs => exact ⟨_, _, by rw [link, orient, if_pos hlhs]; rfl⟩
  | right hlhs hrhs => exact ⟨_, _, by rw [link, orient, if_neg hlhs, if_pos hrhs]; rfl⟩

theorem exists_isRequired_eq_ok_iff (kind : JoinKind) :
    (∃ required, isRequired kind = .ok required) ↔ kind = .inner ∨ kind = .left := by
  cases kind <;> simp [isRequired]

/-- A join has a lookup exactly if it is acceptable. -/
theorem exists_lookup_eq_ok_iff (j : Join) : (∃ l, j.lookup = .ok l) ↔ j.IsAcceptable := by
  -- The steps after the link need what `Links` says of the two fields, and not where it was found.
  have hlink : ∀ l : Link, (∃ r, (do
        let required ← isRequired l.kind
        let localPath ← l.localField.qualifiedPath
        let foreignPath ← l.foreignField.plainPath
        pure ⟨l.schema, l.key, localPath, foreignPath, required⟩ : Except Error Lookup) = .ok r) ↔
      (l.kind = .inner ∨ l.kind = .left) ∧
        l.localField.IsAddressable .qualified ∧ l.foreignField.IsAddressable .plain := by
    intro l
    rw [exists_bind_eq_ok_iff fun _ _ => exists_bind_eq_ok_iff fun _ _ =>
      exists_bind_pure_eq_ok_iff, exists_isRequired_eq_ok_iff]
    exact and_congr_right fun _ => and_congr (l.localField.exists_resolve_eq_ok_iff .qualified)
      (l.foreignField.exists_resolve_eq_ok_iff .plain)
  constructor
  · rintro ⟨r, h⟩
    obtain ⟨l, hl, h⟩ := bind_eq_ok_iff.mp h
    exact ⟨_, _, _, links_of_link hl, (hlink l).mp ⟨r, h⟩⟩
  · rintro ⟨kind, foreignField, localField, hlinks, h⟩
    obtain ⟨schema, key, hl⟩ := exists_link_of_links hlinks
    obtain ⟨r, hr⟩ := (hlink ⟨schema, key, kind, foreignField, localField⟩).mpr h
    exact ⟨r, bind_eq_ok_iff.mpr ⟨_, hl, hr⟩⟩

theorem exists_lookups_eq_ok_iff (joins : List Join) :
    (∃ ls, lookups joins = .ok ls) ↔ ∀ j ∈ joins, j.IsAcceptable := by
  rw [lookups_eq_mapM, exists_mapM_eq_ok_iff]
  exact forall₂_congr fun j _ => j.exists_lookup_eq_ok_iff

end Join

/-! ### Input rows -/

namespace QueryPlan

theorem exists_plainPaths_eq_ok_iff (fields : List Field) :
    (∃ keys, plainPaths fields = .ok keys) ↔ ∀ f ∈ fields, f.IsAddressable .plain := by
  rw [plainPaths_eq_mapM, exists_mapM_eq_ok_iff]
  exact forall₂_congr fun f _ => f.exists_resolve_eq_ok_iff .plain

section Row

variable {keys : List String} {row : List Operand}

/-- The operands of a row are put when all of them but that of the identity are coercible. -/
theorem exists_putOperands_eq_ok_iff (d : Document) :
    (∃ d', putOperands d keys row = .ok d') ↔
      ∀ e ∈ keys.zip row, e.1 ≠ idKey → e.2.IsCoercible := by
  induction keys generalizing row d with
  | nil => exact ⟨fun _ => nofun, fun _ => ⟨d, rfl⟩⟩
  | cons key keys ih =>
    rcases row with _ | ⟨q, row⟩
    · exact ⟨fun _ => nofun, fun _ => ⟨d, rfl⟩⟩
    rw [putOperands, List.zip_cons_cons, List.forall_mem_cons]
    split
    · next hkey => rw [ih, and_iff_right fun hne => absurd hkey hne]
    · next hkey =>
      rw [exists_bind_eq_ok_iff fun v _ => ih (d.put key v), q.exists_encode_eq_ok_iff]
      exact and_congr_left fun _ => ⟨fun h _ => h, fun h => h hkey⟩

/-- A row has a document when it is as long as the fields, and its operands are coercible. -/
theorem exists_rowDocument_eq_ok_iff (hids : keys.Pairwise fun k l => k = idKey → l ≠ idKey) :
    (∃ d, rowDocument keys row = .ok d) ↔
      row.length = keys.length ∧ ∀ operand ∈ row, operand.IsCoercible := by
  rw [rowDocument]
  split
  · next hlength => exact iff_of_false (by rintro ⟨d, h⟩; cases h) fun h => hlength h.1
  next hlength =>
  have hlength : row.length = keys.length := not_not.mp hlength
  have hrow : (∀ operand ∈ row, operand.IsCoercible) ↔ ∀ e ∈ keys.zip row, e.2.IsCoercible := by
    conv_lhs => rw [← List.map_snd_zip (Nat.le_of_eq hlength), List.forall_mem_map]
  rw [and_iff_right hlength, hrow]
  split
  · next hid =>
    rw [exists_putOperands_eq_ok_iff]
    refine forall₂_congr fun e he => ⟨fun h => h fun hkey => ?_, fun h _ => h⟩
    rw [(idOperand?_eq_some_iff hids).mpr (hkey ▸ he : (idKey, e.2) ∈ keys.zip row)] at hid
    cases hid
  · next q hid =>
    -- The identity is encoded first, and every other operand in its turn.
    rw [exists_bind_eq_ok_iff fun id _ => exists_putOperands_eq_ok_iff [(idKey, id)],
      q.exists_encode_eq_ok_iff]
    constructor
    · rintro ⟨hq, h⟩ e he
      by_cases hkey : e.1 = idKey
      · have heid := (idOperand?_eq_some_iff hids).mpr (hkey ▸ he : (idKey, e.2) ∈ keys.zip row)
        exact Option.some.inj (hid.symm.trans heid) ▸ hq
      · exact h e he hkey
    · exact fun h => ⟨h _ ((idOperand?_eq_some_iff hids).mp hid), fun e he _ => h e he⟩

end Row

/-- Paths of fields of which at most one is the identity. -/
private theorem pairwise_of_plainPaths {fields : List Field} {keys : List String}
    (h : plainPaths fields = .ok keys)
    (hids : fields.Pairwise fun f g => f.plainPath = .ok idKey → g.plainPath ≠ .ok idKey) :
    keys.Pairwise fun k l => k = idKey → l ≠ idKey := by
  rw [plainPaths_eq_mapM, mapM_eq_ok_iff] at h
  have hmap : (keys.map (.ok : String → Except Error String)).Pairwise fun x y =>
      x = .ok idKey → y ≠ .ok idKey := h ▸ List.pairwise_map.mpr hids
  refine (List.pairwise_map.mp hmap).imp fun hkl hk hl => ?_
  exact hkl (congrArg _ hk) (congrArg _ hl)

/-- Rows have documents when the fields are addressable and every row fits them. -/
theorem exists_inputDocuments_eq_ok_iff {fields : List Field} {input : List (List Operand)}
    (hids : fields.Pairwise fun f g => f.plainPath = .ok idKey → g.plainPath ≠ .ok idKey) :
    (∃ ds, inputDocuments fields input = .ok ds) ↔
      (∀ f ∈ fields, f.IsAddressable .plain) ∧
        ∀ row ∈ input, row.length = fields.length ∧ ∀ operand ∈ row, operand.IsCoercible := by
  rw [inputDocuments, ← exists_plainPaths_eq_ok_iff]
  refine exists_bind_eq_ok_iff fun keys hkeys => ?_
  rw [rowDocuments_eq_mapM, exists_mapM_eq_ok_iff, (forall₂_of_plainPaths hkeys).length_eq]
  exact forall₂_congr fun row _ =>
    exists_rowDocument_eq_ok_iff (pairwise_of_plainPaths hkeys hids)

end QueryPlan

/-! ### Pipelines -/

/-- A projection can be made when the fields asked for are addressable in rows. -/
theorem Pipeline.exists_projection_eq_ok_iff (q : Query) (ls : List Lookup) :
    (∃ listed, projection q ls = .ok listed) ↔ ∀ f ∈ q.fields, f.IsAddressable .qualified := by
  rw [projection]
  split
  · next hfields =>
    rw [hfields]
    exact ⟨fun _ => nofun, fun _ => ⟨_, rfl⟩⟩
  · rw [exists_bind_pure_eq_ok_iff, qualifiedPaths_eq_mapM, exists_mapM_eq_ok_iff]
    exact forall₂_congr fun f _ => f.exists_resolve_eq_ok_iff .qualified

namespace Query

/-! ### Queries -/

section Supported

variable (q : Query)

/-- Its filters can be compiled for an addressing. -/
def HasFilters (mode : Addressing) : Prop := ∀ f ∈ q.filters, f.IsAcceptable mode

/-- Its rows can be ordered and paged. -/
structure HasPage (mode : Addressing) : Prop where
  sorts : ∀ s ∈ q.sorts, s.IsAcceptable mode
  offsets : Limit.StartsWithCount q.offsets
  limits : Limit.StartsWithCount q.limits

/-- Every row of its input fits its fields. -/
structure HasInput : Prop where
  fields : ∀ f ∈ q.fields, f.IsAddressable .plain
  rows : ∀ row ∈ q.input, row.length = q.fields.length ∧ ∀ operand ∈ row, operand.IsCoercible

/-- It can be run as a pipeline over the rows of its joins. -/
structure HasPipeline : Prop where
  joins : ∀ j ∈ q.joins, j.IsAcceptable
  filters : q.HasFilters .qualified
  page : q.HasPage .qualified
  fields : ∀ f ∈ q.fields, f.IsAddressable .qualified

/-- What a query has to have, depending on its action, to be compiled. -/
def IsSupported : Prop :=
  match q.action with
  | .create => q.HasInput
  | .read =>
    match q.joins with
    | [] => q.HasFilters .plain ∧ q.HasPage .plain
    | _ :: _ => q.HasPipeline
  | .update => q.HasInput ∧ q.HasFilters .plain
  | .delete => (∀ l ∈ q.limits.head?, l = .count 1) ∧ q.HasFilters .plain
  | .aggregate (.field f function) =>
    match function with
    | .count =>
      match q.joins with
      | [] => q.HasFilters .plain
      | _ :: _ => q.HasPipeline
    | .sum | .average | .minimum | .maximum => f.IsAddressable .plain ∧ q.HasFilters .plain
    | .custom _ => False
  | .aggregate (.custom _) => False
  | .custom _ => False

end Supported

section Plans

variable {q : Query}

theorem exists_pipeline_eq_ok_iff : (∃ p, Pipeline.compile q = .ok p) ↔ q.HasPipeline := by
  rw [Pipeline.compile, exists_bind_eq_ok_iff fun ls _ => exists_bind_eq_ok_iff fun filter _ =>
    exists_bind_eq_ok_iff fun ks _ => exists_bind_eq_ok_iff fun offset _ =>
    exists_bind_eq_ok_iff fun limit _ => exists_bind_pure_eq_ok_iff.trans
    (Pipeline.exists_projection_eq_ok_iff q ls), Join.exists_lookups_eq_ok_iff,
    Filter.exists_compileList_eq_ok_iff, SortBy.exists_compile_eq_ok_iff,
    Limit.exists_first_eq_ok_iff, Limit.exists_first_eq_ok_iff]
  constructor
  · rintro ⟨hjoins, hfilters, hsorts, hoffsets, hlimits, hfields⟩
    exact ⟨hjoins, hfilters, ⟨hsorts, hoffsets, hlimits⟩, hfields⟩
  · rintro ⟨hjoins, hfilters, ⟨hsorts, hoffsets, hlimits⟩, hfields⟩
    exact ⟨hjoins, hfilters, hsorts, hoffsets, hlimits, hfields⟩

theorem exists_read_eq_ok_iff (hread : q.action = .read) :
    (∃ plan, QueryPlan.ofRead q = .ok plan) ↔ q.IsSupported := by
  rw [QueryPlan.ofRead, IsSupported, hread]
  cases q.joins with
  | nil =>
    change _ ↔ _ ∧ _
    rw [exists_bind_eq_ok_iff fun filter _ => exists_bind_eq_ok_iff fun ks _ =>
      exists_bind_eq_ok_iff fun skip _ => exists_bind_pure_eq_ok_iff,
      Filter.exists_compileList_eq_ok_iff, SortBy.exists_compile_eq_ok_iff,
      Limit.exists_first_eq_ok_iff, Limit.exists_first_eq_ok_iff]
    exact and_congr_right fun _ => ⟨fun ⟨hsorts, hoffsets, hlimits⟩ => ⟨hsorts, hoffsets, hlimits⟩,
      fun ⟨hsorts, hoffsets, hlimits⟩ => ⟨hsorts, hoffsets, hlimits⟩⟩
  | cons j js => exact exists_bind_pure_eq_ok_iff.trans exists_pipeline_eq_ok_iff

theorem exists_aggregate_eq_ok_iff {a : Aggregate} (haggregate : q.action = .aggregate a) :
    (∃ plan, QueryPlan.ofAggregate q a = .ok plan) ↔ q.IsSupported := by
  have hreduction : ∀ (f : Field) (accumulator : String), (∃ plan, (do
      let path ← f.plainPath
      let filter ← Filter.compileList .plain q.filters
      pure (.group ⟨q.schema, QueryPlan.reduction filter accumulator path⟩) :
        Except Error QueryPlan) = .ok plan) ↔ f.IsAddressable .plain ∧ q.HasFilters .plain := by
    intro f accumulator
    rw [exists_bind_eq_ok_iff fun path _ => exists_bind_pure_eq_ok_iff,
      Filter.exists_compileList_eq_ok_iff]
    exact and_congr_left fun _ => f.exists_resolve_eq_ok_iff .plain
  rw [IsSupported, haggregate]
  cases a with
  | custom text => exact ⟨nofun, nofun⟩
  | field f function =>
    cases function with
    | count =>
      rw [QueryPlan.ofAggregate]
      cases q.joins with
      | nil => exact exists_bind_pure_eq_ok_iff.trans (Filter.exists_compileList_eq_ok_iff _ _)
      | cons j js => exact exists_bind_pure_eq_ok_iff.trans exists_pipeline_eq_ok_iff
    | custom name => exact ⟨nofun, nofun⟩
    | sum => exact hreduction f "$sum"
    | average => exact hreduction f "$avg"
    | minimum => exact hreduction f "$min"
    | maximum => exact hreduction f "$max"

/-- **A query has a plan exactly if it is supported**, when at most one of its fields is the
identity. -/
theorem exists_plan_iff_isSupported
    (hids : q.fields.Pairwise fun f g => f.plainPath = .ok idKey → g.plainPath ≠ .ok idKey) :
    (∃ plan, q.compile = .ok plan) ↔ q.IsSupported := by
  have hinput : (∃ ds, QueryPlan.inputDocuments q.fields q.input = .ok ds) ↔ q.HasInput :=
    (QueryPlan.exists_inputDocuments_eq_ok_iff hids).trans
      ⟨fun h => ⟨h.1, h.2⟩, fun h => ⟨h.1, h.2⟩⟩
  have hfilters := Filter.exists_compileList_eq_ok_iff .plain q.filters
  rw [compile]
  cases haction : q.action with
  | create =>
    rw [IsSupported, haction]
    exact exists_bind_pure_eq_ok_iff.trans hinput
  | read => exact exists_read_eq_ok_iff haction
  | update =>
    rw [IsSupported, haction]
    refine (exists_bind_eq_ok_iff fun filter _ => exists_bind_pure_eq_ok_iff).trans ?_
    rw [hfilters, hinput]
    exact and_comm
  | delete =>
    rw [IsSupported, haction]
    refine (exists_bind_eq_ok_iff fun limit _ => exists_bind_pure_eq_ok_iff).trans ?_
    rw [hfilters, QueryPlan.exists_deleteScope_eq_ok_iff]
    rfl
  | aggregate a => exact exists_aggregate_eq_ok_iff haction
  | custom name =>
    rw [IsSupported, haction]
    exact ⟨nofun, nofun⟩

end Plans

/-- Two visits, whose identity is a number and the second of their fields. -/
def numberedVisits : Query where
  schema := "visits"
  action := .create
  fields := [.single (.name "town") "visits", .identity "visits"]
  input := [[.null, .bind (.int64 1)], [.array [.enumCase "far"], .bind (.int64 2)]]

/-- A visit whose identity is left to the database. -/
def unnumberedVisit : Query := { numberedVisits with input := [[.null, .default]] }

/-- Numbered visits can be written, and one without a number cannot. -/
theorem exists_plan_iff_isSupported_numberedVisits :
    (numberedVisits.fields.Pairwise fun f g => f.plainPath = .ok idKey → g.plainPath ≠ .ok idKey) ∧
      (∃ plan, numberedVisits.compile = .ok plan) ∧
      ¬ ∃ plan, unnumberedVisit.compile = .ok plan := by
  have hids : numberedVisits.fields.Pairwise fun f g =>
      f.plainPath = .ok idKey → g.plainPath ≠ .ok idKey :=
    .cons (fun g _ h => absurd (Except.ok.inj h) (by decide)) (List.pairwise_singleton _ _)
  refine ⟨hids, (exists_plan_iff_isSupported hids).mpr ⟨?_, ?_⟩, fun h => ?_⟩
  · simp [numberedVisits, Field.single, Field.identity, Field.IsAddressable, FieldKey.IsNamed,
      FieldKey.parts]
  · simp [numberedVisits, Operand.IsCoercible, Operand.parts, Operand.partsOfItems]
  · have hinput : unnumberedVisit.HasInput :=
      (exists_plan_iff_isSupported (q := unnumberedVisit) hids).mp h
    have hdefault : Operand.default.IsCoercible :=
      (hinput.rows _ List.mem_cons_self).2 _ (List.mem_cons_of_mem _ List.mem_cons_self)
    exact (hdefault .default List.mem_cons_self).1 rfl

end Query

end DocQuery
