import DocQuery.Proofs.RowReads
import DocQuery.Proofs.UpdateRuns
import DocQuery.Runtime.Regex.Engine

/-!
# What a write touches

An update changes the documents that its filter selects, and a deletion removes them, or the first
of them if it is limited to one. So what a write touches is delivered by the read with the same
filters; for a deletion without joins, sorts and offsets this may be the read with the same limits
(`Query.touched`). A read with all parts of the query may deliver less: an update does not keep to
its limits (`Database.execute_moveOne`).

The main theorem, `Database.execute_touches`, is about every update and deletion, also those that
the store refuses halfway: where that read succeeds, the write touches only documents that it
delivers (`TouchesOnly`), in the collection of the query and on the handle of the connection. What
is touched is settled by the documents as they were before the command: an update may consist of
several statements, of which a later one finds documents that an earlier one has changed, but these
have been touched already (`Collection.changes_updateAll`).
-/

namespace DocQuery

/-! ### Touched documents -/

/-- The documents of a collection before and after a write that touches only documents with a
property: each document is kept, or has the property and is changed or removed. -/
inductive TouchesOnly (p : Document → Prop) : List Document → List Document → Prop
  | nil : TouchesOnly p [] []
  | keep {d : Document} {ds es : List Document} (h : TouchesOnly p ds es) :
      TouchesOnly p (d :: ds) (d :: es)
  | change {d e : Document} {ds es : List Document} (hd : p d) (h : TouchesOnly p ds es) :
      TouchesOnly p (d :: ds) (e :: es)
  | remove {d : Document} {ds es : List Document} (hd : p d) (h : TouchesOnly p ds es) :
      TouchesOnly p (d :: ds) es

namespace TouchesOnly

variable {p r : Document → Prop} {ds es : List Document}

private theorem refl (ds : List Document) : TouchesOnly p ds ds := by
  induction ds with
  | nil => exact nil
  | cons d ds ih => exact keep ih

private theorem imp (h : TouchesOnly p ds es) (hpr : ∀ d ∈ ds, p d → r d) :
    TouchesOnly r ds es := by
  induction h with
  | nil => exact nil
  | keep _ ih => exact keep (ih fun d hd => hpr d (List.mem_cons_of_mem _ hd))
  | change hd _ ih =>
    exact change (hpr _ List.mem_cons_self hd) (ih fun d hd => hpr d (List.mem_cons_of_mem _ hd))
  | remove hd _ ih =>
    exact remove (hpr _ List.mem_cons_self hd) (ih fun d hd => hpr d (List.mem_cons_of_mem _ hd))

private theorem length_le (h : TouchesOnly p ds es) : es.length ≤ ds.length := by
  induction h with
  | nil => exact Nat.le_refl 0
  | keep _ ih => exact Nat.succ_le_succ ih
  | change _ _ ih => exact Nat.succ_le_succ ih
  | remove _ _ ih => exact Nat.le_succ_of_le ih

end TouchesOnly

/-- Documents changed in place: each is the same as before, or had a property. -/
structure Changes (p : Document → Prop) (ds es : List Document) : Prop where
  length_eq : es.length = ds.length
  eq_or : ∀ (i : Nat) (d e : Document), ds[i]? = some d → es[i]? = some e → e = d ∨ p d

namespace Changes

variable {p : Document → Prop} {ds es : List Document}

private theorem refl (ds : List Document) : Changes p ds ds :=
  ⟨rfl, fun _ _ _ hd he => Or.inl (Option.some.inj (he.symm.trans hd))⟩

/-- A document that had the property may be changed once more. -/
private theorem set (h : Changes p ds es) {i : Nat} (hi : ∀ d, ds[i]? = some d → p d)
    (e : Document) :
    Changes p ds (es.set i e) := by
  refine ⟨by rw [List.length_set, h.length_eq], fun j d e' hd he => ?_⟩
  by_cases hij : i = j
  · exact Or.inr (hi d (hij ▸ hd))
  · rw [List.getElem?_set_ne hij] at he
    exact h.eq_or j d e' hd he

private theorem cons {d e : Document} (hd : e = d ∨ p d) (h : Changes p ds es) :
    Changes p (d :: ds) (e :: es) := by
  refine ⟨congrArg Nat.succ h.length_eq, fun i d' e' hd' he' => ?_⟩
  rcases i with _ | i
  · obtain rfl := Option.some.inj hd'
    obtain rfl := Option.some.inj he'
    exact hd
  · exact h.eq_or i d' e' hd' he'

/-- Documents changed in place are touched where they had the property. -/
private theorem touchesOnly (h : Changes p ds es) : TouchesOnly p ds es := by
  induction ds generalizing es with
  | nil =>
    obtain rfl : es = [] := List.length_eq_zero_iff.mp h.length_eq
    exact .nil
  | cons d ds ih =>
    rcases es with _ | ⟨e, es⟩
    · cases h.length_eq
    · have hrest : Changes p ds es :=
        ⟨Nat.succ.inj h.length_eq, fun i d' e' hd he => h.eq_or (i + 1) d' e' hd he⟩
      rcases h.eq_or 0 d e rfl rfl with rfl | hd
      · exact .keep (ih hrest)
      · exact .change hd (ih hrest)

/-- Documents that are touched without any of them removed are changed in place. -/
private theorem of_touchesOnly (h : TouchesOnly p ds es) (hlength : es.length = ds.length) :
    Changes p ds es := by
  induction h with
  | nil => exact refl []
  | keep _ ih => exact (ih (Nat.succ.inj hlength)).cons (Or.inl rfl)
  | change hd _ ih => exact (ih (Nat.succ.inj hlength)).cons (Or.inr hd)
  | remove _ h _ =>
    have hle := h.length_le
    rw [hlength, List.length_cons] at hle
    exact absurd hle (Nat.not_succ_le_self _)

end Changes

/-! ### Updates -/

namespace Collection

/-- The positions that a statement updates hold documents that satisfy its filter. -/
theorem satisfies_of_targets [RegexEngine] {statement : UpdateStatement} {ds : List Document}
    {n i : Nat} {positions : List Nat} (h : targets statement n ds = .ok positions)
    (hi : i ∈ positions) :
    ∃ j d, i = n + j ∧ ds[j]? = some d ∧ d.satisfies statement.filter = .ok true := by
  induction ds generalizing n positions with
  | nil =>
    obtain rfl := Except.ok.inj h
    cases hi
  | cons d ds ih =>
    rw [targets] at h
    obtain ⟨b, hb, h⟩ := bind_eq_ok_iff.mp h
    have hshift : ∀ {positions}, targets statement (n + 1) ds = .ok positions → i ∈ positions →
        ∃ j d', i = n + j ∧ (d :: ds)[j]? = some d' ∧
          d'.satisfies statement.filter = .ok true := by
      intro positions h hi
      obtain ⟨j, d', hij, hd', hsatisfies⟩ := ih h hi
      exact ⟨j + 1, d', by omega, hd', hsatisfies⟩
    cases b
    · exact hshift h hi
    · change (if statement.multi then _ else _) = _ at h
      split at h
      · obtain ⟨rest, hrest, h⟩ := bind_eq_ok_iff.mp h
        obtain rfl := Except.ok.inj h
        rcases List.mem_cons.mp hi with rfl | hi
        · exact ⟨0, d, rfl, rfl, hb⟩
        · exact hshift hrest hi
      · obtain rfl := Except.ok.inj h
        obtain rfl := List.mem_singleton.mp hi
        exact ⟨0, d, rfl, rfl, hb⟩

variable {p : Document → Prop} {before : List Document}

/-- **Updates touch what their filter selects**, of the documents as they were before all
statements. -/
theorem changes_updateAll [RegexEngine] (name : String) {query : Document}
    {statements : List UpdateStatement}
    (hstatements : ∀ statement ∈ statements, statement.filter = query) (reply : UpdateReply)
    {c : Collection} (hc : Changes (fun d => d.satisfies query = .ok true) before c.documents) :
    Changes (fun d => d.satisfies query = .ok true) before
      (updateAll name statements reply c).2.documents := by
  refine updateAll_keeps_of_targets (P := fun c => Changes (fun d => d.satisfies query = .ok true)
    before c.documents) (fun statement hstatement c positions hc htargets i hi => ?_) reply hc
  obtain ⟨j, e, hij, he, hsatisfies⟩ := satisfies_of_targets htargets hi
  rw [Nat.zero_add] at hij
  rw [hstatements statement hstatement] at hsatisfies
  -- A target that was changed before satisfied the filter then.
  have hbefore : ∀ d, before[i]? = some d → d.satisfies query = .ok true := by
    intro d hd
    rcases hc.eq_or i d e hd (hij ▸ he) with rfl | hd'
    · exact hsatisfies
    · exact hd'
  exact fun c d u hc _ _ _ _ => hc.set hbefore u

end Collection

/-! ### Deletions -/

/-- The part of the selected documents that a deletion removes. -/
def DeleteScope.page (limit : DeleteScope) (found : List Document) : List Document :=
  match limit with
  | .one => found.take 1
  | .all => found

private theorem DeleteScope.page_subset (limit : DeleteScope) (found : List Document) :
    limit.page found ⊆ found := by
  cases limit with
  | one => exact List.take_subset 1 found
  | all => exact List.Subset.refl found

/-- **Deletions touch what their filter selects**, or the first of it. -/
theorem Collection.touchesOnly_of_remaining [RegexEngine] {query : Document} {limit : DeleteScope}
    {ds found rest : List Document} (hfound : Document.selectFrom query ds = .ok found)
    (h : remaining query limit ds = .ok rest) : TouchesOnly (· ∈ limit.page found) ds rest := by
  induction ds generalizing found rest with
  | nil =>
    obtain rfl := Except.ok.inj h
    exact .nil
  | cons d ds ih =>
    obtain ⟨b, hb, hfound⟩ := bind_eq_ok_iff.mp hfound
    obtain ⟨others, hothers, hfound⟩ := bind_eq_ok_iff.mp hfound
    obtain rfl := Except.ok.inj hfound
    unfold remaining at h
    obtain ⟨b', hb', h⟩ := bind_eq_ok_iff.mp h
    obtain rfl := Except.ok.inj (hb.symm.trans hb')
    cases b
    · obtain ⟨left, hleft, h⟩ := bind_eq_ok_iff.mp h
      obtain rfl := Except.ok.inj h
      exact .keep (ih hothers hleft)
    · rcases limit
      · obtain rfl := Except.ok.inj h
        exact .remove (List.mem_singleton.mpr rfl) (.refl ds)
      · exact .remove List.mem_cons_self
          ((ih hothers h).imp fun e _ he => List.mem_cons_of_mem d he)

/-- A deletion that fails touches nothing. -/
private theorem Collection.touchesOnly_delete [RegexEngine] {query : Document} {limit : DeleteScope}
    {c : Collection} {found : List Document}
    (hfound : Document.selectFrom query c.documents = .ok found) :
    TouchesOnly (· ∈ limit.page found) c.documents (delete query limit c).2.documents := by
  rw [delete]
  split
  · exact .refl _
  · next rest hrest => exact touchesOnly_of_remaining hfound hrest

/-! ### Writes of queries -/

/-- A write to one collection touches documents of that collection alone. -/
private theorem Catalog.touchesOnly_modify {α : Type} {cat : Catalog} {name : String}
    {f : Collection → Except StoreError α × Collection} {p : Document → Prop}
    (h : TouchesOnly p (cat.collection name).documents (f (cat.collection name)).2.documents)
    (other : String) :
    TouchesOnly (fun d => other = name ∧ p d) (cat.collection other).documents
      ((cat.modify name f).2.collection other).documents := by
  change TouchesOnly _ _
    ((cat.withCollection name (f (cat.collection name)).2).collection other).documents
  by_cases hother : other = name
  · subst hother
    rw [collection_withCollection_self]
    exact h.imp fun d _ hd => ⟨rfl, hd⟩
  · rw [collection_withCollection_of_ne cat _ (Ne.symm hother)]
    exact .refl _

namespace Query

/-- Whether a query is a deletion whose limits count documents of its collection in their order. -/
def isLimitedDelete (q : Query) : Bool :=
  q.action == .delete && q.joins.isEmpty && q.sorts.isEmpty && q.offsets.isEmpty

/-- The read of what a write can touch: with its filters and, if it is such a deletion, its
limits. -/
def touched (q : Query) : Query :=
  { Query.read q.schema with
    filters := q.filters
    limits := if q.isLimitedDelete then q.limits else [] }

end Query

section Touched

variable {db : Database} {s : Server} {cat : Catalog} {q : Query} {filter : Document}
  {rows : List Row}

/-- That read delivers the page of the documents that the filter of the write selects. -/
private theorem Database.exists_of_execute_touched [RegexEngine]
    (hsound : db.connection.faults = none) (hcat : s.store.catalog? db.connection.handle = some cat)
    (hfilter : Filter.compileList .plain q.filters = .ok filter)
    (h : (db.execute q.touched s).1 = ⟨rows, .ok ()⟩) :
    ∃ limit found, Limit.first q.touched.limits = .ok limit ∧
      Document.selectFrom filter (cat.collection q.schema).documents = .ok found ∧
      rows = (Collection.page none limit found).map (Row.ofDocument q.schema) := by
  have hselection : q.touched.selection .plain =
      (Limit.first q.touched.limits).map fun limit => ⟨filter, none, none, limit⟩ := by
    change (Filter.compileList .plain q.filters >>= fun filter => _) = _
    rw [hfilter]
    rcases Limit.first q.touched.limits with e | limit <;> rfl
  obtain ⟨sel, ds, hsel, hds, rfl⟩ := exists_of_plainRead hsound hcat rfl rfl h
  rw [hselection] at hsel
  rcases hlimit : Limit.first q.touched.limits with e | limit <;> rw [hlimit] at hsel
  · cases hsel
  obtain rfl := Except.ok.inj hsel
  -- Without sorts the page is cut from the documents as they were found.
  obtain ⟨found, hfound, hds⟩ := bind_eq_ok_iff.mp hds
  obtain rfl := Except.ok.inj hds
  exact ⟨limit, found, rfl, hfound, rfl⟩

/-- A deletion that is accepted removes the page of a read with its limits. -/
private theorem QueryPlan.page_of_deleteScope {limits : List Limit} {scope : DeleteScope}
    {limit : Option UInt64} (hscope : deleteScope limits = .ok scope)
    (hlimit : Limit.first limits = .ok limit) (found : List Document) :
    Collection.page none limit found = scope.page found := by
  rcases limits with _ | ⟨n | text, limits⟩
  · obtain rfl := Except.ok.inj hscope
    obtain rfl := Except.ok.inj hlimit
    rfl
  · obtain rfl := Except.ok.inj hlimit
    unfold deleteScope at hscope
    split at hscope
    · next heq => cases heq
    · next heq =>
      obtain rfl : n = 1 := Limit.count.inj (List.cons.inj heq).1
      obtain rfl := Except.ok.inj hscope
      rfl
    · cases hscope
  · cases hscope

/-- An update touches what that read delivers. -/
private theorem Database.update_touches [RegexEngine] (hsound : db.connection.faults = none)
    (hcat : s.store.catalog? db.connection.handle = some cat) (hupdate : q.action = .update)
    (hfilter : Filter.compileList .plain q.filters = .ok filter)
    (hread : (db.execute q.touched s).1 = ⟨rows, .ok ()⟩) {statements : List UpdateStatement}
    (hstatements : ∀ statement ∈ statements, statement.filter = filter) (name : String) :
    TouchesOnly (fun d => name = q.schema ∧ Row.ofDocument q.schema d ∈ rows)
      (cat.collection name).documents
      ((cat.update ⟨q.schema, statements⟩).2.collection name).documents := by
  obtain ⟨limit, found, hlimit, hfound, rfl⟩ := exists_of_execute_touched hsound hcat hfilter hread
  have hnone : limit = none := by
    rw [Query.touched, Query.isLimitedDelete, hupdate] at hlimit
    exact (Except.ok.inj hlimit).symm
  have hchanges := Collection.changes_updateAll q.schema hstatements ⟨0, 0⟩
    (Changes.refl (cat.collection q.schema).documents)
  refine Catalog.touchesOnly_modify (hchanges.touchesOnly.imp fun d hd hsatisfies => ?_) name
  rw [hnone]
  exact List.mem_map_of_mem ((Document.mem_selectFrom_iff hfound).mpr ⟨hd, hsatisfies⟩)

/-- A deletion touches what that read delivers. -/
private theorem Database.delete_touches [RegexEngine] (hsound : db.connection.faults = none)
    (hcat : s.store.catalog? db.connection.handle = some cat)
    (hfilter : Filter.compileList .plain q.filters = .ok filter)
    (hread : (db.execute q.touched s).1 = ⟨rows, .ok ()⟩) {scope : DeleteScope}
    (hscope : QueryPlan.deleteScope q.limits = .ok scope) (name : String) :
    TouchesOnly (fun d => name = q.schema ∧ Row.ofDocument q.schema d ∈ rows)
      (cat.collection name).documents
      ((cat.delete ⟨q.schema, filter, scope⟩).2.collection name).documents := by
  obtain ⟨limit, found, hlimit, hfound, rfl⟩ := exists_of_execute_touched hsound hcat hfilter hread
  have hpage : scope.page found ⊆ Collection.page none limit found := by
    by_cases hlimited : q.isLimitedDelete = true
    · have hlimits : Limit.first q.limits = .ok limit := by
        rwa [Query.touched, if_pos hlimited] at hlimit
      rw [QueryPlan.page_of_deleteScope hscope hlimits found]
      exact List.Subset.refl _
    · rw [Query.touched, if_neg hlimited] at hlimit
      obtain rfl := Except.ok.inj hlimit
      exact scope.page_subset found
  exact Catalog.touchesOnly_modify
    ((Collection.touchesOnly_delete hfound).imp fun d _ hd => List.mem_map_of_mem (hpage hd)) name

/-- A store in which the catalog of one handle was written shows what the write touched there, and
the catalogs of the other handles as they were. -/
private theorem exists_of_written {s s' : Store} {h : Handle} {cat cat' : Catalog}
    {command : Command} {p : String → Document → Prop} (hcat : s.catalog? h = some cat)
    (hs' : s' = (s.record command).withCatalog h cat')
    (htouches : ∀ name, TouchesOnly (p name) (cat.collection name).documents
      (cat'.collection name).documents) :
    ∃ cat', s'.catalog? h = some cat' ∧
      (∀ name, TouchesOnly (p name) (cat.collection name).documents
        (cat'.collection name).documents) ∧
      ∀ h' ≠ h, s'.catalog? h' = s.catalog? h' := by
  subst hs'
  obtain ⟨hself, hothers⟩ := Store.catalog?_written hcat command cat'
  exact ⟨cat', hself, htouches, hothers⟩

/-- **Writes touch only what the read of their filters delivers.** Where this read succeeds
(`Query.touched`), an update or a deletion that is accepted changes and removes only documents of
its collection that the read delivers, whether it succeeds or is refused halfway, and nothing on any
other handle. -/
theorem Database.execute_touches [RegexEngine] {plan : QueryPlan}
    (hsound : db.connection.faults = none) (hcat : s.store.catalog? db.connection.handle = some cat)
    (hwrite : q.action = .update ∨ q.action = .delete) (hplan : q.compile = .ok plan)
    (hread : (db.execute q.touched s).1 = ⟨rows, .ok ()⟩) :
    ∃ cat', (db.execute q s).2.store.catalog? db.connection.handle = some cat' ∧
      (∀ name, TouchesOnly (fun d => name = q.schema ∧ Row.ofDocument q.schema d ∈ rows)
        (cat.collection name).documents (cat'.collection name).documents) ∧
      ∀ h ≠ db.connection.handle, (db.execute q s).2.store.catalog? h = s.store.catalog? h := by
  have hexecute : db.execute q s = db.run plan s := by rw [execute, hplan]
  rw [hexecute]
  rw [Query.compile] at hplan
  rcases hwrite with hupdate | hdelete
  · rw [hupdate] at hplan
    obtain ⟨filter, hfilter, hplan⟩ := bind_eq_ok_iff.mp hplan
    obtain ⟨documents, -, hplan⟩ := bind_eq_ok_iff.mp hplan
    obtain rfl := Except.ok.inj hplan
    have hstatements : ∀ statement ∈ documents.map fun d =>
        UpdateStatement.mk filter [("$set", .document d)] true, statement.filter = filter := by
      intro statement hmem
      obtain ⟨d, -, rfl⟩ := List.mem_map.mp hmem
      rfl
    exact exists_of_written hcat (congrArg (fun r => r.2.store) (Connection.update_eq hcat _))
      (update_touches hsound hcat hupdate hfilter hread hstatements)
  · rw [hdelete] at hplan
    obtain ⟨scope, hscope, hplan⟩ := bind_eq_ok_iff.mp hplan
    obtain ⟨filter, hfilter, hplan⟩ := bind_eq_ok_iff.mp hplan
    obtain rfl := Except.ok.inj hplan
    exact exists_of_written hcat (congrArg (fun r => r.2.store) (Connection.delete_eq hcat _))
      (delete_touches hsound hcat hfilter hread hscope)

end Touched

/-- A server with two notes, of the first and of the third day. -/
def twoNotes : Server :=
  ⟨⟨⟨[("notes", ⟨[[(idKey, .int32 1), ("day", .int32 1)], [(idKey, .int32 2), ("day", .int32 3)]],
    []⟩)]⟩, [], []⟩, 0⟩

/-- A deletion of one note of at most the third day. -/
def deleteOne : Query :=
  { Query.delete "notes" with
    filters := [.lte (.single (.name "day") "notes") (.int32 3)]
    limits := [.count 1] }

attribute [local instance] Runtime.engine

/-- Of two notes that it selects, a deletion that is limited to one touches the first. -/
theorem Database.execute_touches_deleteOne :
    ∃ plan cat', deleteOne.compile = .ok plan ∧
      ((ofConnection .sound).execute deleteOne.touched twoNotes).1 =
        ⟨[Row.ofDocument "notes" [(idKey, .int32 1), ("day", .int32 1)]], .ok ()⟩ ∧
      ((ofConnection .sound).execute deleteOne twoNotes).2.store.catalog? .base = some cat' ∧
      (∀ name, TouchesOnly
        (fun d => name = "notes" ∧ Row.ofDocument "notes" d ∈
          [Row.ofDocument "notes" [(idKey, .int32 1), ("day", .int32 1)]])
        (twoNotes.store.committed.collection name).documents
        (cat'.collection name).documents) ∧
      (cat'.collection "notes").documents = [[(idKey, .int32 2), ("day", .int32 3)]] := by
  have hsound : (ofConnection .sound).connection.faults = none := rfl
  have hcat : twoNotes.store.catalog? (ofConnection .sound).connection.handle =
      some twoNotes.store.committed := rfl
  have hread : ((ofConnection .sound).execute deleteOne.touched twoNotes).1 =
      ⟨[Row.ofDocument "notes" [(idKey, .int32 1), ("day", .int32 1)]], .ok ()⟩ := rfl
  obtain ⟨cat', hcat', htouches, -⟩ :=
    execute_touches (q := deleteOne) hsound hcat (Or.inr rfl) rfl hread
  have hleft : ((ofConnection .sound).execute deleteOne twoNotes).2.store.catalog? .base =
      some ⟨[("notes", ⟨[[(idKey, .int32 2), ("day", .int32 3)]], []⟩)]⟩ := rfl
  obtain rfl := Option.some.inj (hcat'.symm.trans hleft)
  exact ⟨_, _, rfl, hread, hcat', htouches, rfl⟩

/-- An update of one note to the second day, as its limit says. -/
def moveOne : Query :=
  { Query.update "notes" with
    fields := [.single (.name "day") "notes"]
    input := [[.bind (.int32 2)]]
    limits := [.count 1] }

/-- **An update does not keep to its limits.** Of two notes the read with the same limit delivers
the first, and the update changes both. -/
theorem Database.execute_moveOne :
    ∃ plan rows cat', moveOne.compile = .ok plan ∧
      ((ofConnection .sound).execute
        { moveOne with action := .read, fields := [], input := [] } twoNotes).1 =
          ⟨rows, .ok ()⟩ ∧
      ((ofConnection .sound).execute moveOne twoNotes).2.store.catalog? .base = some cat' ∧
      ¬ TouchesOnly (fun d => Row.ofDocument "notes" d ∈ rows)
        (twoNotes.store.committed.collection "notes").documents
        (cat'.collection "notes").documents := by
  have hread : ((ofConnection .sound).execute
      { moveOne with action := .read, fields := [], input := [] } twoNotes).1 =
        ⟨[Row.ofDocument "notes" [(idKey, .int32 1), ("day", .int32 1)]], .ok ()⟩ := rfl
  have hleft : ((ofConnection .sound).execute moveOne twoNotes).2.store.catalog? .base =
      some ⟨[("notes", ⟨[[(idKey, .int32 1), ("day", .int32 2)],
        [(idKey, .int32 2), ("day", .int32 2)]], []⟩)]⟩ := rfl
  refine ⟨_, _, _, rfl, hread, hleft, fun htouches => ?_⟩
  -- The note of the third day was changed, so it would have to be the row of the first day.
  rcases (Changes.of_touchesOnly htouches rfl).eq_or 1 _ _ rfl rfl with hsame | hrow
  · cases hsame
  · cases List.mem_singleton.mp hrow

end DocQuery
