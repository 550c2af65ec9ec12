import DocQuery.Proofs.Atomicity
import DocQuery.Proofs.InputRows
import DocQuery.Proofs.Reductions
import DocQuery.Proofs.Replies
import DocQuery.Proofs.Uniqueness
import DocQuery.Runtime.Regex.Engine

/-!
# Stored documents begin with their identity

Documents come into a store in two ways. A creation puts an identity that it is given first, and to
a document without one the collection puts a fresh identity in front. Updates of a query only set
values at paths, which moves no key that is there, so the identity stays in front even where it is
itself written, or a path below it.

Whatever is called on databases reaches the store as requests whose operations are issued: they are
those of the plan of some query, or of a schema operation (`Server.Issues`, `Operation.Issued`). An
issued operation keeps every document of a catalog beginning with its identity
(`Operation.Issued.keeps`), and the main theorem, `Server.identityFirst_of_calls`, follows for every
catalog that a handle can work on, after any calls on any handles, whether or not they succeed.
-/

namespace DocQuery

/-! ### Documents -/

namespace Document

/-- A document begins with its identity. -/
def IdentityFirst (d : Document) : Prop := d.keys.head? = some idKey

namespace IdentityFirst

variable {d : Document}

/-- Writing under a key leaves the first key where it is. -/
private theorem put (h : d.IdentityFirst) (key : String) (v : Value) :
    (d.put key v).IdentityFirst := by
  rcases d with _ | ⟨⟨first, w⟩, d⟩
  · cases h
  · rw [Document.put]
    split
    · exact h
    · exact h

/-- Writing at a path writes under its first key. -/
private theorem write (h : d.IdentityFirst) (path : String) (v : Value) :
    (d.write path v).IdentityFirst := by
  rw [Document.write]
  rcases Path.segments path with _ | ⟨key, _ | ⟨next, keys⟩⟩
  · exact h
  · exact h.put key v
  · exact h.put key _

private theorem writeEach (h : d.IdentityFirst) (fields : Document) :
    (d.writeEach fields).IdentityFirst := by
  induction fields generalizing d with
  | nil => exact h
  | cons e fields ih => exact ih (h.write e.1 e.2)

end IdentityFirst

end Document

/-- A document that begins with its identity, or has none, begins with one once it is identified. -/
private theorem Collection.identityFirst_identified {d : Document}
    (h : d.IdentityFirst ∨ d.value? idKey = none) (id : ObjectId) :
    Document.IdentityFirst (identified id d) := by
  rw [identified]
  split
  · next hid =>
    rcases h with h | h
    · exact h
    · rw [Document.has, h] at hid
      cases hid
  · rfl

namespace QueryPlan

/-- Putting operands leaves the identity in front. -/
private theorem identityFirst_putOperands {keys : List String} {row : List Operand}
    {d d' : Document} (h : putOperands d keys row = .ok d') (hd : d.IdentityFirst) :
    d'.IdentityFirst := by
  induction keys generalizing row d with
  | nil =>
    obtain rfl := Except.ok.inj h
    exact hd
  | cons key keys ih =>
    rcases row with _ | ⟨q, row⟩
    · obtain rfl := Except.ok.inj h
      exact hd
    rcases putOperands_cons h with ⟨-, h⟩ | ⟨-, v, -, h⟩
    · exact ih h hd
    · exact ih h (hd.put key v)

/-- The document of an input row begins with its identity, or has none. -/
private theorem identityFirst_rowDocument {keys : List String} {row : List Operand} {d : Document}
    (h : rowDocument keys row = .ok d) : d.IdentityFirst ∨ d.value? idKey = none := by
  rw [rowDocument] at h
  split at h
  · cases h
  rcases hid : idOperand? keys row with _ | q <;> rw [hid] at h
  · exact Or.inr (value?_putOperands h (Or.inr rfl))
  · obtain ⟨id, -, h⟩ := bind_eq_ok_iff.mp h
    exact Or.inl (identityFirst_putOperands h rfl)

private theorem identityFirst_rowDocuments {keys : List String} {input : List (List Operand)}
    {ds : List Document} (h : rowDocuments keys input = .ok ds) :
    ∀ d ∈ ds, d.IdentityFirst ∨ d.value? idKey = none := by
  induction input generalizing ds with
  | nil =>
    obtain rfl := Except.ok.inj h
    exact fun _ hd => absurd hd List.not_mem_nil
  | cons row rows ih =>
    obtain ⟨d, hd, h⟩ := bind_eq_ok_iff.mp h
    obtain ⟨rest, hrest, h⟩ := bind_eq_ok_iff.mp h
    obtain rfl := Except.ok.inj h
    exact List.forall_mem_cons.mpr ⟨identityFirst_rowDocument hd, ih hrest⟩

end QueryPlan

/-! ### Properties of all documents -/

section Documents

variable {p : Document → Prop}

namespace Collection

/-- Insertions keep a property of all documents that what they insert has once it is identified. -/
private theorem forall_insertAll (name : String) (fresh : Nat → ObjectId) (n : Nat)
    {ds : List Document} (hds : ∀ d ∈ ds, ∀ id, p (identified id d)) {c : Collection}
    (hc : ∀ d ∈ c.documents, p d) :
    ∀ d ∈ (insertAll name fresh n ds c).2.documents, p d := by
  induction ds generalizing n c with
  | nil => exact hc
  | cons d ds ih =>
    obtain ⟨hd, hds⟩ := List.forall_mem_cons.mp hds
    rw [insertAll]
    split
    · exact hc
    · refine ih (n + 1) hds fun e he => ?_
      rcases List.mem_append.mp he with he | he
      · exact hc e he
      · exact List.mem_singleton.mp he ▸ hd (fresh n)

/-- Updates keep a property of all documents that each of their statements keeps of each. -/
theorem forall_updateAll [RegexEngine] (name : String) {statements : List UpdateStatement}
    (hstatements : ∀ statement ∈ statements, ∀ d d' : Document,
      p d → d.updatedBy statement.update = .ok d' → p d')
    (reply : UpdateReply) {c : Collection} (hc : ∀ d ∈ c.documents, p d) :
    ∀ d ∈ (updateAll name statements reply c).2.documents, p d := by
  refine updateAll_keeps (P := fun c => ∀ d ∈ c.documents, p d)
    (fun statement hstatement i c d u hc hd hu _ _ e he => ?_) reply hc
  rcases List.mem_or_eq_of_mem_set he with he | rfl
  · exact hc e he
  · exact hstatements statement hstatement d e (hc d (List.mem_of_getElem? hd)) hu

/-- Deletions keep every property of all documents. -/
private theorem forall_delete [RegexEngine] (filter : Document) (limit : DeleteScope)
    {c : Collection} (hc : ∀ d ∈ c.documents, p d) :
    ∀ d ∈ (delete filter limit c).2.documents, p d := by
  rw [delete]
  split
  · exact hc
  · next rest hrest => exact fun d hd => hc d ((sublist_of_remaining hrest).subset hd)

/-- Creating indexes leaves the documents as they are. -/
private theorem documents_createIndexes (name : String) (indexes : List IndexDefinition)
    (c : Collection) :
    (createIndexes name indexes c).2.documents = c.documents := by
  induction indexes generalizing c with
  | nil => rfl
  | cons index indexes ih =>
    rw [createIndexes]
    split
    · split
      · exact ih c
      · rfl
    · split
      · rfl
      · exact ih _

end Collection

/-- All documents of all collections have a property. -/
def Catalog.All (p : Document → Prop) (cat : Catalog) : Prop :=
  ∀ name, ∀ d ∈ (cat.collection name).documents, p d

private theorem Catalog.all_empty : Catalog.empty.All p := fun _ _ hd => absurd hd List.not_mem_nil

/-- Replacing one collection by one whose documents have a property keeps it of all. -/
private theorem Catalog.all_withCollection {cat : Catalog} (hcat : cat.All p) {name : String}
    {c : Collection} (hc : ∀ d ∈ c.documents, p d) : (cat.withCollection name c).All p :=
  forall_withCollection (p := fun c => ∀ d ∈ c.documents, p d) hcat hc

/-- An operation brings a property to the documents that it inserts, and does not take it from those
that it updates. -/
def Operation.Keeps (p : Document → Prop) : Operation → Prop
  | .insert _ c => ∀ d ∈ c.documents, ∀ id, p (Collection.identified id d)
  | .update c => ∀ statement ∈ c.updates, ∀ d d' : Document,
    p d → d.updatedBy statement.update = .ok d' → p d'
  | _ => True

/-- Such an operation keeps the property of all documents, whether or not it succeeds. -/
private theorem Operation.Keeps.on [RegexEngine] {o : Operation} (h : o.Keeps p) {cat : Catalog}
    (hcat : cat.All p) :
    (o.on cat).2.All p := by
  cases o with
  | find c => exact hcat
  | aggregate c => exact hcat
  | count c => exact hcat
  | insert fresh c =>
    exact Catalog.all_withCollection hcat (Collection.forall_insertAll _ _ _ h (hcat _))
  | update c =>
    exact Catalog.all_withCollection hcat (Collection.forall_updateAll _ h _ (hcat _))
  | delete c => exact Catalog.all_withCollection hcat (Collection.forall_delete _ _ (hcat _))
  | createIndexes c =>
    refine Catalog.all_withCollection hcat ?_
    rw [Collection.documents_createIndexes]
    exact hcat _
  | drop name => exact Catalog.all_withCollection hcat fun _ hd => absurd hd List.not_mem_nil

end Documents

/-! ### What databases ask of a store -/

/-- The operations that databases send: those of the plans of queries, and those of schema
operations. -/
inductive Operation.Issued : Operation → Prop
  | plan {q : Query} {plan : QueryPlan} (h : q.compile = .ok plan) (fresh : Nat → ObjectId) :
      Issued (plan.operation fresh)
  | createIndexes (c : IndexCommand) : Issued (.createIndexes c)
  | drop (name : String) : Issued (.drop name)

/-- A request whose operation, if it carries one, is issued. -/
def Request.Issued (r : Request) : Prop := ∀ h o, r = .command h o → o.Issued

/-- The store of one server becomes that of another by issued requests. -/
def Server.Issues [RegexEngine] (s t : Server) : Prop :=
  ∃ rs : List Request, t.store = s.store.after rs ∧ ∀ r ∈ rs, r.Issued

namespace Server.Issues

variable [RegexEngine]

private theorem refl (s : Server) : Issues s s := ⟨[], rfl, fun _ hr => absurd hr List.not_mem_nil⟩

private theorem trans {s t u : Server} (hst : Issues s t) (htu : Issues t u) : Issues s u := by
  obtain ⟨rs, ht, hrs⟩ := hst
  obtain ⟨rs', hu, hrs'⟩ := htu
  refine ⟨rs ++ rs', ?_, fun r hr => ?_⟩
  · rw [hu, ht, Store.after, Store.after, Store.after, List.foldl_append]
  · exact (List.mem_append.mp hr).elim (hrs r) (hrs' r)

/-- A server whose store served one request. -/
private theorem single {s t : Server} {r : Request} (h : t.store = (s.store.perform r).2)
    (hr : r.Issued) : Issues s t :=
  ⟨[r], h, fun _ hr' => List.mem_singleton.mp hr' ▸ hr⟩

/-- A server whose store served one operation. -/
private theorem command {s t : Server} {h : Handle} {o : Operation} (ho : o.Issued)
    (hstore : t.store = (s.store.perform (.command h o)).2) : Issues s t := by
  refine single hstore fun h' o' heq => ?_
  obtain ⟨-, rfl⟩ := Request.command.inj heq
  exact ho

end Server.Issues

open Server

/-- Starting a transaction is one request. -/
private theorem Connection.issues_start [RegexEngine] (c : Connection) (s : Server) :
    Issues s (c.start s).2 :=
  .single (r := .start c.handle) rfl nofun

/-- Committing is one request, unless it is kept from the store. -/
private theorem Connection.issues_commit [RegexEngine] (c : Connection) (s : Server) :
    Issues s (c.commit s).2 := by
  rcases hhandle : c.handle with _ | n
  · rw [commit, hhandle]
    exact .refl s
  · rw [commit, hhandle]
    dsimp only
    split
    · exact .refl s
    · exact .single (r := .commit n) rfl fun _ _ heq => by cases heq

/-- Aborting is one request. -/
private theorem Connection.issues_abort [RegexEngine] (c : Connection) (s : Server) :
    Issues s (c.abort s).2 := by
  rcases hhandle : c.handle with _ | n
  · rw [abort, hhandle]
    exact .refl s
  · have hstore : (s.run (Store.abort n)).2.store = (s.store.perform (.abort n)).2 := rfl
    rw [abort, hhandle]
    dsimp only
    split
    · next heq =>
      rw [heq] at hstore
      exact .single hstore fun _ _ hcommand => by cases hcommand
    · next heq =>
      rw [heq] at hstore
      cases c.faults.bind (·.failAbort) <;>
        exact .single hstore fun _ _ hcommand => by cases hcommand

namespace Database

variable [RegexEngine]

/-- Executing a query sends the operation of its plan, if it has one. -/
private theorem issues_execute (db : Database) (q : Query) (s : Server) :
    Issues s (db.execute q s).2 := by
  rw [execute]
  rcases hplan : q.compile with e | plan
  · exact .refl s
  · exact .command (.plan hplan _) (db.store_run plan s)

private theorem issues_createEach (db : Database) (commands : List IndexCommand) (s : Server) :
    Issues s (db.createEach commands s).2 := by
  induction commands generalizing s with
  | nil => exact .refl s
  | cons command commands ih =>
    have hstep : Issues s (db.connection.createIndexes command s).2 :=
      .command (.createIndexes command) rfl
    rw [createEach]
    split
    · next heq => rwa [heq] at hstep
    · next heq =>
      rw [heq] at hstep
      exact hstep.trans (ih _)

/-- Executing a schema operation sends its commands, up to the first that fails. -/
private theorem issues_executeSchema (db : Database) (o : SchemaOperation) (s : Server) :
    Issues s (db.executeSchema o s).2 := by
  rw [executeSchema]
  rcases o.compile with e | (commands | collection)
  · exact .refl s
  · exact db.issues_createEach commands s
  · exact .command (.drop collection) rfl

/-- A transaction sends what its body sends, after a start and before a commit or an abort. -/
private theorem issues_transactionally {α : Type} (db : Database)
    {body : Database → Server → Except Error α × Server}
    (hbody : ∀ handle s, Issues s (body handle s).2) (s : Server) :
    Issues s (db.transactionally body s).2 := by
  rcases hdb : db.inTransaction with _ | _
  · have hstart := db.connection.issues_start s
    rcases hstarted : db.connection.start s with ⟨e | c, t⟩ <;> rw [hstarted] at hstart
    · have hrefused : db.transactionally body s = (.error e, t) := by
        simp [transactionally, transaction, hdb, hstarted]
      rw [hrefused]
      exact hstart
    · have hrun := hstart.trans (hbody ⟨c, true⟩ t)
      rcases hended : body ⟨c, true⟩ t with ⟨e | v, u⟩ <;> rw [hended] at hrun
      · rw [transactionally_of_error hdb hstarted hended]
        exact hrun.trans (c.issues_abort u)
      · have hcommit := hrun.trans (c.issues_commit u)
        rcases hcommitted : c.commit u with ⟨e | _, w⟩ <;> rw [hcommitted] at hcommit
        · rw [transactionally_of_commit_error hdb hstarted hended hcommitted]
          exact hcommit.trans (c.issues_abort w)
        · rw [transactionally_of_commit hdb hstarted hended hcommitted]
          exact hcommit
  · -- Inside a transaction the body runs on the handle as it is.
    obtain ⟨c, _⟩ := db
    subst hdb
    exact hbody ⟨c, true⟩ s

end Database

/-- A body sends what its calls send. -/
private theorem Body.issues_run [RegexEngine] {α : Type} (body : Body α) (db : Database)
    (s : Server) :
    Issues s (body.run db s).2 := by
  induction body generalizing db s with
  | done result => exact .refl s
  | query q next ih => exact (db.issues_execute q s).trans (ih _ db _)
  | schema o next ih => exact (db.issues_executeSchema o s).trans (ih _ db _)
  | transaction inner next ih ihnext =>
    exact (db.issues_transactionally (fun handle s => ih handle s) s).trans (ihnext _ db _)
  | connection inner next ih ihnext => exact (ih db s).trans (ihnext _ db _)

/-! ### Reachable servers -/

/-- The servers that calls on database handles lead to from an empty one, at any moment: calls on
several handles may take turns, and a transaction is open between its start and its end. -/
inductive Server.Reachable [RegexEngine] : Server → Prop
  | empty : Reachable .empty
  | execute {s : Server} (h : Reachable s) (db : Database) (q : Query) :
      Reachable (db.execute q s).2
  | executeSchema {s : Server} (h : Reachable s) (db : Database) (o : SchemaOperation) :
      Reachable (db.executeSchema o s).2
  | start {s : Server} (h : Reachable s) (c : Connection) : Reachable (c.start s).2
  | commit {s : Server} (h : Reachable s) (c : Connection) : Reachable (c.commit s).2
  | abort {s : Server} (h : Reachable s) (c : Connection) : Reachable (c.abort s).2

private theorem Server.Reachable.issues [RegexEngine] {s : Server} (h : s.Reachable) :
    Issues .empty s := by
  induction h with
  | empty => exact .refl _
  | execute _ db q ih => exact ih.trans (db.issues_execute q _)
  | executeSchema _ db o ih => exact ih.trans (db.issues_executeSchema o _)
  | start _ c ih => exact ih.trans (c.issues_start _)
  | commit _ c ih => exact ih.trans (c.issues_commit _)
  | abort _ c ih => exact ih.trans (c.issues_abort _)

/-! ### The invariant -/

namespace QueryPlan

variable {p : Document → Prop} {q : Query} {plan : QueryPlan}

/-- Reads write nothing. -/
private theorem keeps_of_read (h : ofRead q = .ok plan) (fresh : Nat → ObjectId) :
    (plan.operation fresh).Keeps p := by
  rcases hjoins : q.joins with _ | ⟨j, js⟩
  · rw [ofRead_plain hjoins] at h
    obtain ⟨sel, -, h⟩ := bind_eq_ok_iff.mp h
    obtain rfl := Except.ok.inj h
    trivial
  · rw [ofRead, hjoins] at h
    obtain ⟨pipeline, -, h⟩ := bind_eq_ok_iff.mp h
    obtain rfl := Except.ok.inj h
    trivial

/-- Aggregates write nothing. -/
private theorem keeps_of_aggregate {a : Aggregate} (h : ofAggregate q a = .ok plan)
    (fresh : Nat → ObjectId) : (plan.operation fresh).Keeps p := by
  rcases a with ⟨f, function⟩ | text
  · by_cases hcount : function = .count
    · subst hcount
      rw [ofAggregate] at h
      split at h
      · obtain ⟨filter, -, h⟩ := bind_eq_ok_iff.mp h
        obtain rfl := Except.ok.inj h
        trivial
      · obtain ⟨pipeline, -, h⟩ := bind_eq_ok_iff.mp h
        obtain rfl := Except.ok.inj h
        trivial
    · obtain ⟨_, _, _, _, -, -, -, -, rfl⟩ := exists_reduction hcount h
      trivial
  · cases h

end QueryPlan

/-- **One operation.** What a database issues keeps documents beginning with their identity. -/
theorem Operation.Issued.keeps {o : Operation} (h : o.Issued) : o.Keeps Document.IdentityFirst := by
  cases h with
  | createIndexes c => trivial
  | drop name => trivial
  | @plan q plan hplan fresh =>
    rw [Query.compile] at hplan
    split at hplan
    · -- A creation inserts the documents of its rows.
      obtain ⟨documents, hdocuments, hplan⟩ := bind_eq_ok_iff.mp hplan
      obtain rfl := Except.ok.inj hplan
      obtain ⟨keys, -, hrows⟩ := bind_eq_ok_iff.mp hdocuments
      exact fun d hd => Collection.identityFirst_identified
        (QueryPlan.identityFirst_rowDocuments hrows d hd)
    · exact QueryPlan.keeps_of_read hplan fresh
    · -- An update sets the values of the documents of its rows.
      obtain ⟨filter, -, hplan⟩ := bind_eq_ok_iff.mp hplan
      obtain ⟨documents, -, hplan⟩ := bind_eq_ok_iff.mp hplan
      obtain rfl := Except.ok.inj hplan
      intro statement hstatement d d' hd hupdated
      obtain ⟨fields, -, rfl⟩ := List.mem_map.mp hstatement
      rw [Document.updatedBy_set] at hupdated
      obtain rfl := Except.ok.inj hupdated
      exact hd.writeEach fields
    · obtain ⟨limit, -, hplan⟩ := bind_eq_ok_iff.mp hplan
      obtain ⟨filter, -, hplan⟩ := bind_eq_ok_iff.mp hplan
      obtain rfl := Except.ok.inj hplan
      trivial
    · exact QueryPlan.keeps_of_aggregate hplan fresh
    · cases hplan

/-- **Issued requests**, however many, keep the documents of all catalogs beginning with their
identity. -/
theorem Store.everywhere_after [RegexEngine] {s : Store}
    (hs : s.Everywhere (·.All Document.IdentityFirst)) {rs : List Request}
    (hrs : ∀ r ∈ rs, r.Issued) :
    (s.after rs).Everywhere (·.All Document.IdentityFirst) := by
  induction rs generalizing s with
  | nil => exact hs
  | cons r rs ih =>
    obtain ⟨hr, hrs⟩ := List.forall_mem_cons.mp hrs
    exact ih (everywhere_perform hs r fun h o heq _ hcat => (hr h o heq).keeps.on hcat) hrs

/-- **Every stored document is identified, identity first.** Take any server that calls on databases
lead to from an empty one, and run on it any body of queries, schema operations and transactions:
then every document of every collection, in the committed catalog and in the working copy of every
open transaction, has an identity, as its first key. -/
theorem Server.identityFirst_of_calls [RegexEngine] {α : Type} {s : Server} (hs : s.Reachable)
    (body : Body α) (db : Database) {h : Handle} {cat : Catalog}
    (hcat : (body.run db s).2.store.catalog? h = some cat) (name : String) :
    ∀ d ∈ (cat.collection name).documents, d.keys.head? = some idKey := by
  obtain ⟨rs, hstore, hrs⟩ := hs.issues.trans (body.issues_run db s)
  rw [hstore] at hcat
  have hempty : Server.empty.store.Everywhere (·.All Document.IdentityFirst) :=
    Store.everywhere_empty Catalog.all_empty
  exact Store.everywhere_after hempty hrs h cat hcat name

/-- A creation of a user whose identity is given after the name. -/
def newUser : Query where
  schema := "users"
  action := .create
  fields := [.single (.name "name") "users", .identity "users"]
  input := [[.bind (.string "a"), .bind (.int32 7)]]

/-- An update of all users at a path below their identity. -/
def numberedUsers : Query where
  schema := "users"
  action := .update
  fields := [.path [.id, .name "number"] "users"]
  input := [[.bind (.int32 1)]]

/-- The server after the creation. -/
def newUserServer : Server :=
  let d : Document := [(idKey, .int32 7), ("name", .string "a")]
  ⟨⟨⟨[("users", ⟨[d], []⟩)]⟩, [], [.insert ⟨"users", [d]⟩]⟩, 1⟩

/-- A transaction in which all users are updated. -/
def numberingUsers : Body Unit :=
  .transaction (.query numberedUsers fun _ => .done (.ok ())) .done

attribute [local instance] Runtime.engine

/-- The user, whose identity the transaction replaced, still begins with one. -/
theorem Server.identityFirst_of_numberedUsers :
    let db := Database.ofConnection .sound
    ∃ cat, (db.execute newUser .empty).2 = newUserServer ∧
      (numberingUsers.run db newUserServer).2.store.catalog? .base = some cat ∧
      (cat.collection "users").documents =
        [[(idKey, .document [("number", .int32 1)]), ("name", .string "a")]] ∧
      ∀ d ∈ (cat.collection "users").documents, d.keys.head? = some idKey := by
  intro db
  have hserver : (db.execute newUser .empty).2 = newUserServer := rfl
  have hs : newUserServer.Reachable := hserver ▸ .execute .empty db newUser
  have hdocs : (((numberingUsers.run db newUserServer).2.store.catalog? .base).map fun cat =>
      (cat.collection "users").documents) =
        some [[(idKey, .document [("number", .int32 1)]), ("name", .string "a")]] := by
    decide +kernel
  obtain ⟨cat, hcat, hdocs⟩ := Option.map_eq_some_iff.mp hdocs
  exact ⟨cat, hserver, hcat, hdocs, identityFirst_of_calls hs numberingUsers db hcat "users"⟩

end DocQuery
