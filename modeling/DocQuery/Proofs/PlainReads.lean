import DocQuery.Proofs.FilterMeaning
import DocQuery.Proofs.Requests
import DocQuery.Proofs.Selection
import DocQuery.Runtime.Regex.Engine

/-!
# Plain reads agree with their pipelines

A read without joins runs as a find command, with its fields as paths inside the documents of the
collection. Compiled as a pipeline it runs on rows instead, in which each document stands under the
name of the collection and the paths of the same fields lead through this name. The main theorem,
`Query.find_agrees_aggregate`, says that the two deliver the same documents in the same order, or
fail with the same error, whether compiling or running fails.

Two results are `Alike` when they fail with one error, or succeed with values that stand in a
relation. What a part of a query compiles to under the two addressings is alike in the relation that
says what the part does: filters decide a document and its row in the same way
(`Filter.compileList_alike`, from `Filter.holds_under`), sorts compare documents as their rows
(`SortBy.compile_qualified`, `SortKeys.compare_through`), and the selections made of them deliver
the same documents (`Selection.Under.apply_map`).
-/

namespace DocQuery

/-! ### Results that are alike -/

/-- Two results are alike: they fail with the same error, or succeed with values in a relation. -/
def Alike {ε α β : Type} (r : α → β → Prop) : Except ε α → Except ε β → Prop
  | .ok a, .ok b => r a b
  | .error e, .error e' => e = e'
  | .ok _, .error _ => False
  | .error _, .ok _ => False

namespace Alike

variable {ε α β γ δ : Type} {r t : α → β → Prop} {x : Except ε α} {y : Except ε β}

/-- Steps that are alike, followed by steps that are alike, are alike. -/
private theorem bind {s : γ → δ → Prop} (h : Alike r x y) {f : α → Except ε γ} {g : β → Except ε δ}
    (hfg : ∀ a b, r a b → Alike s (f a) (g b)) : Alike s (x >>= f) (y >>= g) := by
  rcases x with e | a <;> rcases y with e' | b
  · exact h
  · exact h.elim
  · exact h.elim
  · exact hfg a b h

/-- A result is like itself. -/
private theorem refl (x : Except ε α) : Alike (· = ·) x x := by
  rcases x with e | a <;> rfl

/-- What is computed from a result is like it. -/
private theorem map_right (x : Except ε α) (f : α → β) :
    Alike (fun a b => b = f a) x (x.map f) := by
  rcases x with e | a <;> rfl

/-- Results that are alike are so in every relation that holds of their values. -/
private theorem imp (h : Alike r x y) (himp : ∀ a b, x = .ok a → y = .ok b → r a b → t a b) :
    Alike t x y := by
  rcases x with e | a <;> rcases y with e' | b
  · exact h
  · exact h
  · exact h
  · exact himp a b rfl rfl h

end Alike

/-! ### Fields -/

/-- A field of a collection, without a namespace. -/
def Field.BelongsTo (schema : String) : Field → Prop
  | .path _ owner => owner = schema
  | .extended _ owner none => owner = schema
  | .extended _ _ (some _) => False
  | .custom _ => False

instance (schema : String) (f : Field) : Decidable (f.BelongsTo schema) :=
  match f with
  | .path _ owner => inferInstanceAs (Decidable (owner = schema))
  | .extended _ owner none => inferInstanceAs (Decidable (owner = schema))
  | .extended _ _ (some _) => inferInstanceAs (Decidable False)
  | .custom _ => inferInstanceAs (Decidable False)

namespace Path

/-- A path inside the document under a key of a row. -/
def through (schema path : String) : String := schema ++ "." ++ path

theorem through_inj {schema path other : String} (h : through schema path = through schema other) :
    path = other :=
  (String.append_right_inj _).mp h

/-- A path through a key is none of an operator unless the key is. -/
private theorem isOperator_through {schema : String} (h : isOperator schema = false)
    (path : String) :
    isOperator (through schema path) = false := by
  have hlist : (through schema path).toList = schema.toList ++ '.' :: path.toList := by
    rw [through, String.toList_append, String.toList_append, List.append_assoc]
    rfl
  rw [isOperator] at h ⊢
  rw [hlist]
  rcases hschema : schema.toList with _ | ⟨c, cs⟩
  · rfl
  · rw [hschema] at h
    exact h

end Path

section Rows

variable {schema : String} (hkey : Path.IsKey schema)

/-- The fields of a collection lead through its name in rows. -/
theorem Field.resolve_qualified {f : Field} (h : f.BelongsTo schema) :
    f.resolve .qualified = (f.resolve .plain).map (Path.through schema) := by
  have hnames : ∀ keys,
      (FieldKey.resolveAll keys >>= fun names => pure (schema ++ "." ++ Path.ofKeys names)) =
        (FieldKey.resolveAll keys >>= fun names => pure (Path.ofKeys names)).map
          (Path.through schema) := by
    intro keys
    rcases FieldKey.resolveAll keys with e | names <;> rfl
  rcases f with ⟨keys, owner⟩ | ⟨keys, owner, _ | space⟩ | text
  · obtain rfl : owner = schema := h
    exact hnames keys
  · obtain rfl : owner = schema := h
    exact hnames keys
  · exact h.elim
  · exact h.elim

include hkey

theorem Document.read?_through (d : Document) (path : String) :
    (d.under schema).read? (Path.through schema path) = d.read? path :=
  read?_qualified hkey (by rw [under, value?_cons, if_pos rfl]) path

/-- A document has at a field what its row has there. -/
private theorem Document.at?_under {f : Field} (h : f.BelongsTo schema) (d : Document) :
    (d.under schema).at? .qualified f = d.at? .plain f := by
  rw [at?, at?, Field.resolve_qualified h]
  rcases f.resolve .plain with e | path
  · rfl
  · exact read?_through hkey d path

end Rows

/-! ### Filters -/

namespace Filter

section Meaning

variable {schema : String} (d : Document)

mutual

/-- **A filter means the same** of a document and of its row, if it reads fields of the collection
and holds no raw query document. -/
theorem holds_under [RegexEngine] (hkey : Path.IsKey schema) :
    ∀ (f : Filter), (∀ field ∈ fieldsOf f, field.BelongsTo schema) →
      (∀ query, .raw query ∉ leaves f) →
        holds .qualified (d.under schema) f = holds .plain d f
  | .value field test operand, hfields, _ => by
    have hfield : field.BelongsTo schema := hfields field (by simp [fieldsOf])
    rw [holds, holds, Document.at?_under hkey hfield]
  | .fields lhs test rhs, hfields, _ => by
    have hlhs : lhs.BelongsTo schema := hfields lhs (by simp [fieldsOf])
    have hrhs : rhs.BelongsTo schema := hfields rhs (by simp [fieldsOf])
    rw [holds, holds, Document.at?_under hkey hlhs, Document.at?_under hkey hrhs]
  | .group filters .all, hfields, hraw => by
    rw [holds, holds]
    exact (holdsAll_under hkey filters hfields hraw).1
  | .group filters .any, hfields, hraw => by
    rw [holds, holds]
    exact (holdsAll_under hkey filters hfields hraw).2
  | .group _ (.custom _), _, _ => rfl
  | .raw query, _, hraw => absurd (List.mem_singleton.mpr rfl) (hraw query)
  | .otherBackend _, _, _ => rfl

/-- Several filters mean the same of a document and of its row, tried as all or as any. -/
private theorem holdsAll_under [RegexEngine] (hkey : Path.IsKey schema) :
    ∀ (fs : List Filter), (∀ field ∈ fieldsOfAll fs, field.BelongsTo schema) →
      (∀ query, .raw query ∉ leavesOfAll fs) →
        holdsAll .qualified (d.under schema) fs = holdsAll .plain d fs ∧
        holdsAny .qualified (d.under schema) fs = holdsAny .plain d fs
  | [], _, _ => ⟨rfl, rfl⟩
  | f :: fs, hfields, hraw => by
    obtain ⟨hfieldsFirst, hfieldsRest⟩ := forall_mem_fieldsOfAll_cons.mp hfields
    obtain ⟨hrawFirst, hrawRest⟩ := raw_notMem_leavesOfAll_cons.mp hraw
    have hfirst := holds_under hkey f hfieldsFirst hrawFirst
    obtain ⟨hall, hany⟩ := holdsAll_under hkey fs hfieldsRest hrawRest
    refine ⟨?_, ?_⟩
    · rw [holdsAll, holdsAll, hfirst, hall]
    · rw [holdsAny, holdsAny, hfirst, hany]

end

end Meaning

/-- A comparison with an operand compiles or fails alike on every path. -/
private theorem compileValue_alike (path path' : String) (test : FieldTest) (operand : Operand) :
    Alike (fun _ _ => True) (compileValue path test operand) (compileValue path' test operand) := by
  by_cases htest : ∃ inverse location, test = .contains inverse location
  · obtain ⟨inverse, location, rfl⟩ := htest
    rcases operand with s | _ | _ | _ | _ | _ | _ | _ <;> try exact rfl
    rcases s with _ | _ | _ | _ | _ | needle | _ | _ | _ | _ <;> try exact rfl
    exact trivial
  · have hne : ∀ inverse location, test ≠ .contains inverse location :=
      fun inverse location h => htest ⟨inverse, location, h⟩
    rw [compileValue_eq hne, compileValue_eq hne]
    exact (Alike.refl _).bind fun _ _ hname =>
      hname ▸ (Alike.refl _).bind fun _ _ _ => trivial

section Compile

variable {schema : String}

mutual

/-- A filter on fields of a collection compiles or fails alike under both addressings. -/
private theorem compile_alike :
    ∀ (f : Filter), (∀ field ∈ fieldsOf f, field.BelongsTo schema) →
      Alike (fun _ _ => True) (compile .plain f) (compile .qualified f)
  | .value field test operand, hfields => by
    have hfield : field.BelongsTo schema := hfields field (by simp [fieldsOf])
    rw [compile, compile, Field.resolve_qualified hfield]
    exact (Alike.map_right _ _).bind fun path path' _ => compileValue_alike path path' test operand
  | .fields lhs test rhs, hfields => by
    have hlhs : lhs.BelongsTo schema := hfields lhs (by simp [fieldsOf])
    have hrhs : rhs.BelongsTo schema := hfields rhs (by simp [fieldsOf])
    rw [compile, compile, compileFields, compileFields, Field.resolve_qualified hlhs,
      Field.resolve_qualified hrhs]
    exact (Alike.refl _).bind fun _ _ _ => (Alike.map_right _ _).bind fun _ _ _ =>
      (Alike.map_right _ _).bind fun _ _ _ => trivial
  | .group filters .all, hfields => by
    rw [compile, compile]
    exact (compileEach_alike filters hfields).bind fun _ _ _ => trivial
  | .group filters .any, hfields => by
    rw [compile, compile]
    exact (compileEach_alike filters hfields).bind fun _ _ _ => trivial
  | .group _ (.custom _), _ => rfl
  | .raw _, _ => trivial
  | .otherBackend _, _ => rfl

/-- Several filters compile or fail alike under both addressings. -/
private theorem compileEach_alike :
    ∀ (fs : List Filter), (∀ field ∈ fieldsOfAll fs, field.BelongsTo schema) →
      Alike (fun _ _ => True) (compileEach .plain fs) (compileEach .qualified fs)
  | [], _ => trivial
  | f :: fs, hfields => by
    obtain ⟨hfirst, hrest⟩ := forall_mem_fieldsOfAll_cons.mp hfields
    rw [compileEach, compileEach]
    exact (compile_alike f hfirst).bind fun _ _ _ =>
      (compileEach_alike fs hrest).bind fun _ _ _ => trivial

end

end Compile

/-- **Filters are alike** under both addressings: they fail to compile with the same error, or their
query documents decide a document and its row in the same way. -/
theorem compileList_alike [RegexEngine] {schema : String} (hkey : Path.IsKey schema)
    (hschema : isOperator schema = false) {fs : List Filter}
    (hfields : ∀ field ∈ fieldsOfAll fs, field.BelongsTo schema)
    (hplain : ∀ field ∈ fieldsOfAll fs, field.IsPlain .plain)
    (hraw : ∀ query, .raw query ∉ leavesOfAll fs) :
    Alike (fun query query' => ∀ d : Document,
        (d.under schema).satisfies query' = d.satisfies query)
      (compileList .plain fs) (compileList .qualified fs) := by
  have hqualified : ∀ field ∈ fieldsOfAll fs, field.IsPlain .qualified := by
    intro field hfield path hpath
    rw [Field.resolve_qualified (hfields field hfield)] at hpath
    rcases hresolve : field.resolve .plain with e | plain
    · rw [hresolve] at hpath
      cases hpath
    · rw [hresolve] at hpath
      obtain rfl : Path.through schema plain = path := Except.ok.inj hpath
      exact Path.isOperator_through hschema plain
  have hcompile := (compileEach_alike fs hfields).imp
    (t := fun queries queries' => ∀ d : Document,
      (d.under schema).satisfies (combineAll queries') = d.satisfies (combineAll queries))
    fun queries queries' hqueries hqueries' _ d => by
      rw [satisfies_combineAll, satisfies_combineAll,
        (satisfies_compileEach _ fs hqueries' hqualified).1,
        (satisfies_compileEach d fs hqueries hplain).1, (holdsAll_under d hkey fs hfields hraw).1]
  exact hcompile.bind fun _ _ h => h

end Filter

/-! ### Sorts -/

/-- The entries of a document, under paths through a key. -/
def Document.through (schema : String) (d : Document) : Document :=
  d.map fun e => (Path.through schema e.1, e.2)

/-- Sort keys whose paths lead through a key. -/
def SortKeys.through (schema : String) (keys : SortKeys) : SortKeys :=
  keys.map fun key => (Path.through schema key.1, key.2)

/-- The sort keys of fields of a collection lead through its name in rows. -/
private theorem SortBy.keys_qualified {schema : String} {sorts : List SortBy}
    (h : ∀ f direction, .field f direction ∈ sorts → f.BelongsTo schema) :
    keys .qualified sorts = (keys .plain sorts).map (SortKeys.through schema) := by
  induction sorts with
  | nil => rfl
  | cons sort sorts ih =>
    have hrest := ih fun f direction hmem => h f direction (List.mem_cons_of_mem _ hmem)
    rcases sort with ⟨f, direction⟩ | text
    · have hfield : f.BelongsTo schema := h f direction List.mem_cons_self
      rw [keys, keys, Field.resolve_qualified hfield, hrest]
      rcases f.resolve .plain with e | path
      · rfl
      rcases direction.resolve with e | order
      · rfl
      rcases keys .plain sorts with e | others
      · rfl
      · rfl
    · rfl

/-- The sorts of a query on fields of its collection are those of its rows. -/
theorem SortBy.compile_qualified {schema : String} {sorts : List SortBy}
    (h : ∀ f direction, .field f direction ∈ sorts → f.BelongsTo schema) :
    compile .qualified sorts =
      (compile .plain sorts).map (Option.map (SortKeys.through schema)) := by
  rw [compile, compile, keys_qualified h]
  rcases keys .plain sorts with e | (_ | ⟨key, keys⟩) <;> rfl

namespace SortKeys

variable {schema : String}

/-- The sort document of keys on rows is that of the keys, with its paths through the name. -/
private theorem toDocument_through (keys : SortKeys) :
    (keys.through schema).toDocument = keys.toDocument.through schema := by
  have hput : ∀ (d : Document) (path : String) (v : Value),
      (d.through schema).put (Path.through schema path) v = (d.put path v).through schema := by
    intro d path v
    induction d with
    | nil => rfl
    | cons e d ih =>
      obtain ⟨k, w⟩ := e
      change Document.put ((Path.through schema k, w) :: Document.through schema d) _ v = _
      rw [Document.put, Document.put, ih]
      by_cases hk : k = path
      · rw [if_pos hk, if_pos (congrArg _ hk)]
        rfl
      · rw [if_neg hk, if_neg (mt Path.through_inj hk)]
        rfl
  have hfold : ∀ d : Document,
      (keys.through schema).foldl (fun d key => d.put key.1 key.2.toValue) (d.through schema) =
        (keys.foldl (fun d key => d.put key.1 key.2.toValue) d).through schema := by
    induction keys with
    | nil => exact fun _ => rfl
    | cons key keys ih =>
      intro d
      change (through schema keys).foldl _
        ((d.through schema).put (Path.through schema key.1) _) = _
      rw [hput]
      exact ih _
  exact hfold []

private theorem ofDocument_through (spec : Document) :
    ofDocument (spec.through schema) = (ofDocument spec).map (through schema) := by
  induction spec with
  | nil => rfl
  | cons e spec ih =>
    obtain ⟨path, v⟩ := e
    change ofDocument ((Path.through schema path, v) :: Document.through schema spec) = _
    rw [ofDocument, ofDocument, ih]
    rcases Direction.ofValue? v with _ | direction
    · rfl
    rcases ofDocument spec with e | keys
    · rfl
    · rfl

variable (hkey : Path.IsKey schema)

include hkey

/-- Rows compare by the keys on rows as their documents do. -/
theorem compare_through (keys : SortKeys) (d e : Document) :
    (keys.through schema).compare (d.under schema) (e.under schema) = keys.compare d e := by
  induction keys with
  | nil => rfl
  | cons key keys ih =>
    obtain ⟨path, direction⟩ := key
    change SortKeys.compare ((Path.through schema path, direction) :: through schema keys) _ _ = _
    rw [compare, compare, ih, Document.read?_through hkey, Document.read?_through hkey]

/-- Rows are ordered as their documents are. -/
private theorem order_through (keys : Option SortKeys) (ds : List Document) :
    Selection.order (keys.map (through schema)) (ds.map (Document.under schema)) =
      (Selection.order keys ds).map (List.map (Document.under schema)) := by
  rcases keys with _ | keys
  · rfl
  · change Document.sortBy (keys.through schema).toDocument _ =
      (Document.sortBy keys.toDocument ds).map _
    rw [toDocument_through, Document.sortBy, Document.sortBy, ofDocument_through]
    rcases ofDocument keys.toDocument with e | sorted
    · rfl
    · refine congrArg Except.ok (StableSort.sort_map _ fun d _ e _ => ?_)
      rw [compare_through hkey]

end SortKeys

/-! ### Selections -/

/-- Rows are selected as their documents are. -/
private theorem Document.selectFrom_map [RegexEngine] {query query' : Document}
    {f : Document → Document} (h : ∀ d, (f d).satisfies query' = d.satisfies query)
    (ds : List Document) :
    selectFrom query' (ds.map f) = (selectFrom query ds).map (List.map f) := by
  induction ds with
  | nil => rfl
  | cons d ds ih =>
    rw [List.map_cons, selectFrom, selectFrom, h, ih]
    rcases d.satisfies query with e | b
    · rfl
    rcases selectFrom query ds with e | found
    · rfl
    · cases b <;> rfl

namespace Selection

/-- A selection of rows that decides them as another one decides their documents, and puts them in
the same order and page. -/
structure Under [RegexEngine] (schema : String) (sel rows : Selection) : Prop where
  filter : ∀ d : Document, (d.under schema).satisfies rows.filter = d.satisfies sel.filter
  keys : rows.keys = sel.keys.map (SortKeys.through schema)
  offset : rows.offset = sel.offset
  limit : rows.limit = sel.limit

/-- Such a selection delivers the rows of the documents that the other one delivers. -/
theorem Under.apply_map [RegexEngine] {schema : String} (hkey : Path.IsKey schema)
    {sel rows : Selection} (h : Under schema sel rows) (ds : List Document) :
    rows.apply (ds.map (Document.under schema)) =
      (sel.apply ds).map (List.map (Document.under schema)) := by
  rw [apply, apply, Document.selectFrom_map h.filter, h.keys, h.offset, h.limit]
  rcases Document.selectFrom sel.filter ds with e | found
  · rfl
  change (order (sel.keys.map _) (found.map _) >>= fun ds => pure (Collection.page _ _ ds)) =
    (order sel.keys found >>= fun ds => pure (Collection.page _ _ ds)).map _
  rw [SortKeys.order_through hkey]
  rcases order sel.keys found with e | sorted
  · rfl
  · exact congrArg Except.ok (Collection.page_map _ _ _ sorted)

end Selection

/-- The projection to the only key of a row keeps the row, also where the key is the identity. -/
private theorem Document.project_under {schema : String} (hkey : Path.IsKey schema) (d : Document) :
    Document.project (Pipeline.listing [schema]) (d.under schema) = d.under schema := by
  by_cases hid : schema = idKey
  · rw [hid]
    rfl
  · have hkeys : ∀ key ∈ [schema], Path.IsKey key := fun key hmem =>
      List.mem_singleton.mp hmem ▸ hkey
    have hnotMem : idKey ∉ [schema] := fun hmem => hid (List.mem_singleton.mp hmem).symm
    exact project_listing rfl (List.pairwise_singleton _ schema) hkeys hnotMem

/-- The pipeline of a selection of rows delivers the rows of what the find command of the selection
of documents delivers. -/
private theorem Catalog.aggregate_under [RegexEngine] {cat : Catalog} {schema : String}
    (hkey : Path.IsKey schema) (hschema : isOperator schema = false) {sel rows : Selection}
    (h : Selection.Under schema sel rows)
    (hsize : (cat.collection schema).documents.length < 2 ^ 63) :
    cat.aggregate ⟨schema, Pipeline.stagesOf schema [] rows (Pipeline.listing [schema])⟩ =
      (cat.find (sel.command schema)).map (List.map (Document.under schema)) := by
  have hlength :
      ((cat.collection schema).documents.map (Document.under schema)).length < 2 ^ 63 := by
    rwa [List.length_map]
  have hproject : ∀ row ∈ (cat.collection schema).documents.map (Document.under schema),
      Document.project (Pipeline.listing [schema]) row = row := by
    intro row hrow
    obtain ⟨d, -, rfl⟩ := List.mem_map.mp hrow
    exact Document.project_under hkey d
  rw [aggregate, Stage.runAll_stagesOf _ hschema rows _ rfl,
    Stage.runAll_selectionStages _ rows hlength, Selection.map_apply_eq_self hproject,
    h.apply_map hkey, find_command]

namespace Query

section Agreement

variable {q : Query} (hkey : Path.IsKey q.schema) (hschema : isOperator q.schema = false)
  (hfields : ∀ field ∈ Filter.fieldsOfAll q.filters, field.BelongsTo q.schema)
  (hplain : ∀ field ∈ Filter.fieldsOfAll q.filters, field.IsPlain .plain)
  (hraw : ∀ query, .raw query ∉ Filter.leavesOfAll q.filters)
  (hsorts : ∀ field direction, .field field direction ∈ q.sorts → field.BelongsTo q.schema)

include hkey hschema hfields hplain hraw hsorts

/-- **Selections are alike** under both addressings: they fail to compile with the same error, or
they select rows as their documents. -/
theorem selection_alike [RegexEngine] :
    Alike (Selection.Under q.schema) (q.selection .plain) (q.selection .qualified) := by
  rw [selection, selection, SortBy.compile_qualified hsorts]
  refine (Filter.compileList_alike hkey hschema hfields hplain hraw).bind fun _ _ hfilter => ?_
  refine (Alike.map_right _ _).bind fun keys _ hkeys => ?_
  refine (Alike.refl _).bind fun offset _ hoffset => ?_
  refine (Alike.refl _).bind fun limit _ hlimit => ?_
  exact ⟨hfilter, hkeys, hoffset.symm, hlimit.symm⟩

/-- **A plain read agrees with its pipeline.** Of a read without joins and without fields to
deliver, whose filters hold no raw query document and whose filters and sorts are on fields of its
collection, the find command and the pipeline fail to compile with the same error, or they run alike
on every store: they deliver the same documents in the same order, each under the name of the
collection, or fail with the same error. -/
theorem find_agrees_aggregate [RegexEngine] (hread : q.action = .read) (hjoins : q.joins = [])
    (hnone : q.fields = []) :
    Alike
      (fun plan pipeline => ∃ command, plan = .find q.schema command ∧
        ∀ (s : Store) (h : Handle),
          (∀ cat, s.catalog? h = some cat →
            (cat.collection q.schema).documents.length < 2 ^ 63) →
          (s.aggregate h ⟨q.schema, pipeline.stages⟩).1 =
            (s.find h command).1.map (List.map (Document.under q.schema)))
      q.compile (Pipeline.compile q) := by
  have hlisted : Pipeline.projection q [] = .ok (Pipeline.listing [q.schema]) := by
    rw [Pipeline.projection, hnone]
    rfl
  rw [compile_of_read hread, QueryPlan.ofRead_plain hjoins, Pipeline.compile_eq, hjoins]
  refine (selection_alike hkey hschema hfields hplain hraw hsorts).bind fun sel rows hrows => ?_
  rw [hlisted]
  refine ⟨sel.command q.schema, rfl, fun s h hsize => ?_⟩
  rw [Store.aggregate, Store.find, Store.ask, Store.ask, Store.catalog?_record,
    Store.catalog?_record]
  rcases hcat : s.catalog? h with _ | cat
  · rfl
  · exact Catalog.aggregate_under hkey hschema hrows (hsize cat hcat)

end Agreement

/-- A read of the notes from the third day on, or without a day, the latest first. -/
def recentNotes : Query :=
  let day := Field.single (.name "day") "notes"
  { schema := "notes"
    action := .read
    filters := [.anyOf [.gte day (.int32 3), .eq day .null]]
    sorts := [.descending day]
    limits := [.count 2] }

/-- A store of three notes, of which the second has no day. -/
def noteStore : Store :=
  ⟨⟨[("notes", ⟨[[(idKey, .int32 1), ("day", .int32 3)], [(idKey, .int32 2)],
    [(idKey, .int32 3), ("day", .int32 4)]], []⟩)]⟩, [], []⟩

attribute [local instance] Runtime.engine

/-- Of three notes both ways deliver the two that have a day, each under the name of the
collection. -/
theorem find_agrees_aggregate_recentNotes :
    ∃ command pipeline, recentNotes.compile = .ok (.find "notes" command) ∧
      Pipeline.compile recentNotes = .ok pipeline ∧
      (noteStore.aggregate .base ⟨"notes", pipeline.stages⟩).1 =
        (noteStore.find .base command).1.map (List.map (Document.under "notes")) ∧
      (noteStore.find .base command).1 =
        .ok [[(idKey, .int32 3), ("day", .int32 4)], [(idKey, .int32 1), ("day", .int32 3)]] := by
  obtain ⟨plan, hplan⟩ : ∃ plan, recentNotes.compile = .ok plan := ⟨_, rfl⟩
  obtain ⟨pipeline, hpipeline⟩ : ∃ p, Pipeline.compile recentNotes = .ok p := ⟨_, rfl⟩
  have hraw : ∀ query, .raw query ∉ Filter.leavesOfAll recentNotes.filters := by
    intro query hmem
    simp [recentNotes, Filter.leavesOfAll, Filter.leaves, Filter.anyOf, Filter.gte,
      Filter.eq] at hmem
  have hsorts : ∀ field direction, .field field direction ∈ recentNotes.sorts →
      field.BelongsTo "notes" := by
    intro field direction hmem
    cases List.mem_singleton.mp hmem
    rfl
  have hagree := find_agrees_aggregate (q := recentNotes) (by decide) (by decide) (by decide)
    (by decide) hraw hsorts rfl rfl rfl
  rw [hplan, hpipeline] at hagree
  obtain ⟨command, rfl, hrun⟩ := hagree
  have hsize : ∀ cat, noteStore.catalog? .base = some cat →
      (cat.collection "notes").documents.length < 2 ^ 63 := by
    intro cat hcat
    obtain rfl := Option.some.inj hcat
    decide
  obtain ⟨-, rfl⟩ := QueryPlan.find.inj (Except.ok.inj hplan)
  exact ⟨_, pipeline, rfl, hpipeline, hrun noteStore .base hsize, rfl⟩

end Query

end DocQuery
