import DocQuery.Proofs.Replies
import DocQuery.Proofs.Selection

/-!
# What a row reads at a field

A caller sees a row through its fields: whether it contains one, and which value it reads there.
`Row.Reads` says both at once, in terms of what the row holds. A row of a plain read holds its
document (`Row.reads_ofDocument`), and a row of a joined read holds under the key of each collection
either a document or a list of documents, of which the first is read (`Row.reads_ofJoined`,
`Row.valueUnder?_list`).

Plain reads deliver one such row for each document that they select
(`Database.execute_plainRead`).
-/

namespace DocQuery

/-- What a row reads at a field: it contains the field exactly if it holds a value there, and reads
this value, or null. -/
structure Row.Reads (row : Row) (f : Field) (held : Option Value) : Prop where
  contains_eq : row.contains f = held.isSome
  value_eq : row.value f = .ok (held.getD .null)

namespace Row

/-- A row of documents reads what it holds. -/
private theorem reads_of_fetch {row : Row} (hrow : ∀ v, row ≠ .aggregate v) {f : Field}
    {held : Option Value} (h : row.fetch f = .ok held) : row.Reads f held := by
  rcases row with ⟨d, narrowed⟩ | ⟨d, layout, narrowed⟩ | v
  · exact ⟨by simp only [contains, h], by simp only [value, h]; rfl⟩
  · exact ⟨by simp only [contains, h], by simp only [value, h]; rfl⟩
  · exact absurd rfl (hrow v)

/-! ### Keys of rows -/

/-- Under a key with a document a row holds what the document does. -/
theorem valueUnder?_document {row d : Document} {key : String}
    (h : row.value? key = some (.document d)) (path : String) :
    valueUnder? row key path = d.read? path := by
  rw [valueUnder?, h]

/-- Under a key with a list of documents a row holds what the first of them does. -/
theorem valueUnder?_list {row : Document} {ds : List Document} {key : String}
    (h : row.value? key = some (.array (ds.map .document))) (path : String) :
    valueUnder? row key path = ds.head?.bind (·.read? path) := by
  rw [valueUnder?, h]
  rcases ds with _ | ⟨d, ds⟩ <;> rfl

/-- Every collection of a joined row stands under the name that fields know it by. -/
private theorem joinedKey_ofLookups (ls : List Lookup) (schema : String) :
    joinedKey (.ofLookups ls) schema = schema := by
  -- The layout is written entry by entry, each under the key that it holds.
  have hfold : ∀ layout : RowLayout,
      (∀ key part, SortedMap.get? key layout = some part → part.key = key) →
        ∀ key part,
          SortedMap.get? key ((ls.map fun l => (l.key, RowPart.mk l.schema l.key)).foldl
            (fun m e => SortedMap.insert e.1 e.2 m) layout) = some part → part.key = key := by
    induction ls with
    | nil => exact fun _ h => h
    | cons l ls ih =>
      intro layout h
      refine ih _ fun key part hpart => ?_
      by_cases hkey : l.key = key
      · subst hkey
        rw [SortedMap.get?_insert_self] at hpart
        obtain rfl := Option.some.inj hpart
        rfl
      · rw [SortedMap.get?_insert_of_ne _ _ hkey] at hpart
        exact h key part hpart
  rw [joinedKey]
  rcases hpart : SortedMap.get? schema (RowLayout.ofLookups ls) with _ | part
  · rfl
  · exact hfold [] nofun schema part hpart

/-! ### Rows of reads -/

variable {f : Field} {schema path : String}

/-- The row of a document reads at the fields of its collection what the document holds. -/
theorem reads_ofDocument (hschema : f.schema? = some schema) (hpath : f.plainPath = .ok path)
    (d : Document) : (ofDocument schema d).Reads f (d.read? path) := by
  have howner : owner none f = .ok schema := by rw [owner, hschema]
  have hunder : valueUnder? [(schema, .document d)] schema path = d.read? path :=
    valueUnder?_document (by rw [Document.value?_cons, if_pos rfl]) path
  rw [ofDocument, ← hunder]
  refine reads_of_fetch ?_ ?_
  · nofun
  rw [fetch, hpath]
  change (owner none f >>= _) = _
  rw [howner]
  rfl

/-- A joined row reads at the fields of a collection what it holds under the name of it. -/
theorem reads_ofJoined (hschema : f.schema? = some schema) (hpath : f.plainPath = .ok path)
    (ls : List Lookup) (d : Document) :
    (ofJoined (.ofLookups ls) d).Reads f (valueUnder? d schema path) := by
  have howner : owner none f = .ok schema := by rw [owner, hschema]
  rw [ofJoined]
  refine reads_of_fetch ?_ ?_
  · nofun
  rw [fetch, hpath, ← joinedKey_ofLookups ls schema]
  change (owner none f >>= _) = _
  rw [howner]
  rfl

end Row

/-! ### Plain reads -/

/-- An outcome without an error is its rows. -/
theorem Outcome.eq_of_ending {o : Outcome} (h : o.ending.toOption = some ()) :
    o = ⟨o.rows, .ok ()⟩ := by
  obtain ⟨rows, e | _⟩ := o
  · cases h
  · rfl

/-- A read that succeeds delivers a row for each document that arrives. -/
theorem Outcome.ofRead_eq_ok_iff {row : Document → Row}
    {reply : Except StoreError (List Document)} {rows : List Row} :
    ofRead row reply = ⟨rows, .ok ()⟩ ↔ ∃ ds, reply = .ok ds ∧ rows = ds.map row := by
  rcases reply with e | ds
  · exact ⟨nofun, fun ⟨_, h, _⟩ => nomatch h⟩
  · refine ⟨fun h => ⟨ds, rfl, (congrArg Outcome.rows h).symm⟩, ?_⟩
    rintro ⟨_, hds, rfl⟩
    obtain rfl := Except.ok.inj hds
    rfl

/-- **Plain reads** deliver a row for each document of their collection that they select, or fail
without a row. -/
theorem Database.execute_plainRead [RegexEngine] {db : Database} {s : Server} {cat : Catalog}
    {q : Query} (hsound : db.connection.faults = none)
    (hcat : s.store.catalog? db.connection.handle = some cat) (hread : q.action = .read)
    (hjoins : q.joins = []) :
    (db.execute q s).1 =
      match q.selection .plain with
      | .error e => .failure e
      | .ok sel =>
        .ofRead (Row.ofDocument q.schema) (sel.apply (cat.collection q.schema).documents) := by
  rw [execute, Query.compile_of_read hread, QueryPlan.ofRead_plain hjoins]
  rcases q.selection .plain with e | sel
  · rfl
  · change (db.run (.find q.schema (sel.command q.schema)) s).1 = _
    rw [run_find hcat hsound, Catalog.find_command]

/-- A plain read that selects everything delivers a row for each document of its collection. -/
theorem Database.execute_everything [RegexEngine] {db : Database} {s : Server} {cat : Catalog}
    {q : Query} (hsound : db.connection.faults = none)
    (hcat : s.store.catalog? db.connection.handle = some cat) (hread : q.action = .read)
    (hjoins : q.joins = []) (hsel : q.selection .plain = .ok .everything) :
    (db.execute q s).1 =
      ⟨(cat.collection q.schema).documents.map (Row.ofDocument q.schema), .ok ()⟩ := by
  rw [execute_plainRead hsound hcat hread hjoins, hsel]
  change Outcome.ofRead _ (Selection.everything.apply _) = _
  rw [Selection.apply_everything]
  rfl

/-- A plain read that succeeds delivers the rows of the documents that it selects. -/
theorem Database.exists_of_plainRead [RegexEngine] {db : Database} {s : Server} {cat : Catalog}
    {q : Query} {rows : List Row} (hsound : db.connection.faults = none)
    (hcat : s.store.catalog? db.connection.handle = some cat) (hread : q.action = .read)
    (hjoins : q.joins = []) (h : (db.execute q s).1 = ⟨rows, .ok ()⟩) :
    ∃ sel ds, q.selection .plain = .ok sel ∧
      sel.apply (cat.collection q.schema).documents = .ok ds ∧
      rows = ds.map (Row.ofDocument q.schema) := by
  rw [execute_plainRead hsound hcat hread hjoins] at h
  rcases hsel : q.selection .plain with e | sel <;> rw [hsel] at h
  · cases h
  · obtain ⟨ds, hds, hrows⟩ := Outcome.ofRead_eq_ok_iff.mp h
    exact ⟨sel, ds, rfl, hds, hrows⟩

end DocQuery
