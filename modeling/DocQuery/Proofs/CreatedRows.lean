import DocQuery.Proofs.InputRows
import DocQuery.Proofs.RowReads
import DocQuery.Runtime.Regex.Engine

/-!
# Reading back what was created

A creation writes one document for each of its input rows, and a read of the collection delivers
them in the same order. What a caller finds in them depends on the fields: an operand is stored
under the plain path of its field, which is then a single key of the document, while a row reads a
path key by key. So a field of one key reads back what was given for it, and a field of several keys
reads back as if it had never been written, though the value is in the store.

`Database.execute_created` says this of every creation that succeeds in an empty collection, and
`Database.execute_newUser` shows a value that is lost.
-/

namespace DocQuery

/-! ### Stored documents -/

namespace Collection

variable {name : String} {fresh : Nat → ObjectId}

/-- An insertion that succeeds stores every document with an identity, behind those that were
there. -/
private theorem documents_of_insertAll {n m : Nat} {ds : List Document} {c : Collection}
    (h : (insertAll name fresh n ds c).1 = .ok m) :
    ∃ stored, (insertAll name fresh n ds c).2.documents = c.documents ++ stored ∧
      List.Forall₂ (fun d e => ∃ id, e = identified id d) ds stored := by
  induction ds generalizing n c with
  | nil => exact ⟨[], (List.append_nil c.documents).symm, .nil⟩
  | cons d ds ih =>
    rw [insertAll] at h ⊢
    rcases hconflict : conflict? name c.indexes c.documents (identified (fresh n) d) with _ | cause
    · simp only [hconflict] at h ⊢
      obtain ⟨stored, hdocuments, hstored⟩ := ih h
      refine ⟨identified (fresh n) d :: stored, ?_, .cons ⟨fresh n, rfl⟩ hstored⟩
      rw [hdocuments, List.append_assoc, List.singleton_append]
    · simp only [hconflict] at h
      cases h

/-- An identity is added without hiding another key. -/
private theorem value?_identified (id : ObjectId) (d : Document) (key : String) :
    Document.value? (identified id d) key = d.value? key ∨
      key = idKey ∧ d.value? idKey = none ∧
        Document.value? (identified id d) key = some (.objectId id) := by
  by_cases hid : d.has idKey = true
  · rw [identified, if_pos hid]
    exact Or.inl rfl
  · have hnone : d.value? idKey = none := by
      rw [Document.has, Option.isSome_iff_ne_none] at hid
      exact Decidable.not_not.mp hid
    rw [identified, if_neg hid, Document.value?_cons]
    split
    · next hkey =>
      subst hkey
      exact Or.inr ⟨rfl, hnone, rfl⟩
    · exact Or.inl rfl

end Collection

/-! ### Reading a stored row -/

section Stored

variable {paths : List String} {operands : List Operand} {d : Document} {path : String} {v : Value}

/-- A stored document reads under a path of one key what was written under this key. -/
private theorem Collection.read?_identified (hkey : Path.IsKey path) (hv : d.value? path = some v)
    (id : ObjectId) : Document.read? (identified id d) path = some v := by
  rw [Document.read?_key hkey]
  rcases value?_identified id d path with heq | ⟨rfl, hnone, -⟩
  · exact heq.trans hv
  · cases hnone.symm.trans hv

/-- Under a path of several keys a stored document reads nothing: its keys are whole paths, and none
of them is the first key of another. -/
private theorem QueryPlan.RowDocument.read?_eq_none (h : RowDocument paths operands d)
    (hpaths : paths.Pairwise Path.Apart) (hpath : path ∈ paths) (hkey : ¬ Path.IsKey path)
    (id : ObjectId) : Document.read? (Collection.identified id d) path = none := by
  obtain ⟨first, second, rest, hsegments⟩ := Path.exists_segments hkey
  have hfirst : first ∉ paths :=
    Path.not_mem_of_segments hpaths hpath hsegments (List.cons_ne_nil second rest)
  have hnone : d.value? first = none :=
    Document.value?_eq_none_iff.mpr fun hmem => hfirst (h.subset hmem)
  rw [Document.read?, hsegments, Value.follow?_document]
  rcases Collection.value?_identified id d first with heq | ⟨-, -, heq⟩
  · rw [heq, hnone]
    rfl
  · -- The identity that was added is no document either.
    rw [heq]
    exact Value.follow?_atom (.objectId id) second rest

end Stored

/-! ### Creations -/

namespace Database

variable {db : Database} {s : Server} {cat : Catalog} {q : Query} {paths : List String}

/-- A creation that succeeds in an empty collection leaves there a document for each of its rows, in
their order. -/
private theorem exists_of_create [RegexEngine] (hsound : db.connection.faults = none)
    (hcat : s.store.catalog? db.connection.handle = some cat) (hcreate : q.action = .create)
    (hpaths : QueryPlan.plainPaths q.fields = .ok paths) (hnodup : paths.Nodup)
    (hempty : (cat.collection q.schema).documents = [])
    (hending : (db.execute q s).1.ending = .ok ()) :
    ∃ cat', (db.execute q s).2.store.catalog? db.connection.handle = some cat' ∧
      (cat'.collection q.schema).documents.length = q.input.length ∧
      ∀ (i : Nat) (operands : List Operand), q.input[i]? = some operands →
        ∃ id d, (cat'.collection q.schema).documents[i]? = some (Collection.identified id d) ∧
          QueryPlan.RowDocument paths operands d := by
  obtain ⟨plan, hplan, hexecute⟩ := exists_plan_of_ending hending
  rw [Query.compile, hcreate] at hplan
  obtain ⟨documents, hdocuments, hplan⟩ := bind_eq_ok_iff.mp hplan
  obtain rfl := Except.ok.inj hplan
  rw [hexecute, run_insert hcat hsound] at hending ⊢
  refine ⟨_, (Store.catalog?_written hcat _ _).1, ?_⟩
  obtain ⟨n, hreply⟩ : ∃ n, (cat.insert (fun i => Server.identity (s.issued + i))
      ⟨q.schema, documents⟩).1 = .ok n := by
    rcases hreply : (cat.insert (fun i => Server.identity (s.issued + i))
      ⟨q.schema, documents⟩).1 with cause | n
    · rw [hreply] at hending
      cases hending
    · exact ⟨n, rfl⟩
  obtain ⟨stored, hstored, hidentified⟩ := Collection.documents_of_insertAll hreply
  have hcollection : ((cat.insert (fun i => Server.identity (s.issued + i))
      ⟨q.schema, documents⟩).2.collection q.schema).documents = stored := by
    rw [Catalog.insert, Catalog.modify, Catalog.collection_withCollection_self]
    exact hstored.trans (by rw [hempty, List.nil_append])
  have hrows := QueryPlan.forall₂_of_inputDocuments hpaths hnodup hdocuments
  rw [hcollection]
  refine ⟨hidentified.length_eq.symm.trans hrows.length_eq.symm, fun i operands hoperands => ?_⟩
  obtain ⟨d, hd, hrow⟩ := exists_getElem?_of_forall₂ hrows hoperands
  obtain ⟨_, he, id, rfl⟩ := exists_getElem?_of_forall₂ hidentified hd
  exact ⟨id, d, he, hrow⟩

/-- **What is created is read back field by field**, where fields of one key are. After a creation
that succeeds in an empty collection, a read of everything delivers a row for each input row, in
their order; it reads at a field of one key exactly what was given, and does not contain a field of
several keys. -/
theorem execute_created [RegexEngine] (hsound : db.connection.faults = none)
    (hcat : s.store.catalog? db.connection.handle = some cat) (hcreate : q.action = .create)
    (hschema : ∀ f ∈ q.fields, f.schema? = some q.schema)
    (hpaths : QueryPlan.plainPaths q.fields = .ok paths) (hapart : paths.Pairwise Path.Apart)
    (hempty : (cat.collection q.schema).documents = [])
    (hending : (db.execute q s).1.ending = .ok ()) :
    ∃ rows : List Row,
      (db.execute (.read q.schema) (db.execute q s).2).1 = ⟨rows, .ok ()⟩ ∧
      rows.length = q.input.length ∧
      ∀ (i j : Nat) (operands : List Operand) (f : Field) (operand : Operand),
        q.input[i]? = some operands → q.fields[j]? = some f → operands[j]? = some operand →
          ∃ row path v, rows[i]? = some row ∧ f.plainPath = .ok path ∧ operand.encode = .ok v ∧
            row.Reads f (if Path.IsKey path then some v else none) := by
  have hnodup : paths.Nodup := hapart.imp fun h => h.ne
  obtain ⟨cat', hcat', hlength, hstored⟩ :=
    exists_of_create hsound hcat hcreate hpaths hnodup hempty hending
  refine ⟨(cat'.collection q.schema).documents.map (Row.ofDocument q.schema),
    execute_everything hsound hcat' rfl rfl rfl, ?_, ?_⟩
  · rw [List.length_map, hlength]
  · intro i j operands f operand hoperands hf hoperand
    obtain ⟨id, d, hd, hrow⟩ := hstored i operands hoperands
    obtain ⟨path, v, hpath, hmem, hv, hvalue⟩ := hrow.exists_operand hpaths hf hoperand
    have hread : Document.read? (Collection.identified id d) path =
        if Path.IsKey path then some v else none := by
      split
      · next hkey => exact Collection.read?_identified hkey hvalue id
      · next hkey => exact hrow.read?_eq_none hapart hmem hkey id
    refine ⟨Row.ofDocument q.schema (Collection.identified id d), path, v, ?_, hpath, hv, ?_⟩
    · rw [List.getElem?_map, hd]
      rfl
    · rw [← hread]
      exact Row.reads_ofDocument (hschema f (List.mem_of_getElem? hf)) hpath _

/-! ### A user with an address -/

/-- The city of a user, inside the address. -/
def cityOfUser : Field := .path [.name "address", .name "city"] "users"

/-- A creation of a user with an identity and a city. -/
def newUser : Query where
  schema := "users"
  action := .create
  fields := [.identity "users", cityOfUser]
  input := [[.bind (.int32 1), .bind (.string "Paris")]]

attribute [local instance] Runtime.engine

/-- The user is created and read back, with the identity and without the city. -/
theorem execute_created_newUser :
    ∃ rows row, ((ofConnection .sound).execute newUser .empty).1.ending = .ok () ∧
      ((ofConnection .sound).execute (.read "users")
        ((ofConnection .sound).execute newUser .empty).2).1 = ⟨rows, .ok ()⟩ ∧
      rows.length = 1 ∧ rows[0]? = some row ∧
      row.Reads (.identity "users") (some (.int32 1)) ∧ row.Reads cityOfUser none := by
  let db := ofConnection .sound
  have hsound : db.connection.faults = none := rfl
  have hcat : Server.empty.store.catalog? db.connection.handle =
      some Server.empty.store.committed := rfl
  have hschema : ∀ f ∈ newUser.fields, f.schema? = some newUser.schema := by
    intro f hf
    simp only [newUser, List.mem_cons, List.not_mem_nil, or_false] at hf
    rcases hf with rfl | rfl <;> rfl
  have hpaths : QueryPlan.plainPaths newUser.fields = .ok [idKey, "address.city"] := rfl
  have hending : (db.execute newUser .empty).1.ending = .ok () := rfl
  obtain ⟨rows, hread, hlength, hrows⟩ :=
    execute_created hsound hcat rfl hschema hpaths (by decide) rfl hending
  obtain ⟨row, path, v, hrow, hpath, hv, hid⟩ := hrows 0 0 _ _ _ rfl rfl rfl
  obtain ⟨row', path', v', hrow', hpath', -, hcity⟩ := hrows 0 1 _ _ _ rfl rfl rfl
  obtain rfl := Option.some.inj (hrow.symm.trans hrow')
  obtain rfl := Except.ok.inj hpath
  obtain rfl := Except.ok.inj hpath'
  obtain rfl := Except.ok.inj hv
  exact ⟨rows, row, hending, hread, hlength, hrow, hid, hcity⟩

/-- **A value inside an address is lost.** The user is created with a city, and the row that is read
back does not have it. -/
theorem execute_newUser :
    newUser.fields.map Field.plainPath = [.ok idKey, .ok "address.city"] ∧
    Path.Apart idKey "address.city" ∧
    newUser.input.map (List.map Operand.encode) = [[.ok (.int32 1), .ok (.string "Paris")]] ∧
    ((ofConnection .sound).execute newUser .empty).1.ending = .ok () ∧
    ∃ row, ((ofConnection .sound).execute (.read "users")
        ((ofConnection .sound).execute newUser .empty).2).1 = ⟨[row], .ok ()⟩ ∧
      row.contains cityOfUser = false ∧ row.value cityOfUser = .ok .null :=
  ⟨rfl, by decide, rfl, rfl, _, rfl, rfl, rfl⟩

end Database

end DocQuery
