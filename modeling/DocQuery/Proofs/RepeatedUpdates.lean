import DocQuery.Proofs.CollectionWrites
import DocQuery.Proofs.Identification
import DocQuery.Proofs.RepeatedWrites
import DocQuery.Proofs.UpdatedDocuments
import DocQuery.Proofs.ValueParts
import DocQuery.Runtime.Regex.Engine
import Mathlib.Control.Monad.Basic

/-!
# Repeating an update

An update of one row can be repeated: nothing is changed a second time, and nothing is counted.
The documents that satisfy its filter afterwards need not be those that did so before, but one that
was not updated then does not satisfy it now either. All others are settled (`Document.Settled`):
since writes at several paths can be repeated (`Document.writeEach_writeEach`), setting the same
values again makes the same document of each, or one that is the same in storage.

That nothing is counted needs that documents are the same as themselves, which a document with a NaN
is not (`Value.same_self`); it would be written again, as it is. The main theorem is
`Database.execute_again`.
-/

namespace DocQuery

/-! ### One document -/

namespace Document

/-- Setting values makes no other document of this one, but for what storage does not tell apart. -/
def Settled (fields d : Document) : Prop :=
  d.writeEach fields = d ∨ (d.writeEach fields).same d = true

/-- A document in which values were set is settled. -/
private theorem SetTo.settled {fields d d' : Document} (h : SetTo fields d d') :
    Settled fields d' := by
  rcases h with rfl | ⟨rfl, hsame⟩
  · exact Or.inl (writeEach_writeEach fields d)
  · exact Or.inr hsame

/-- Setting values in a settled document leaves it the same in storage, if it is regular. -/
private theorem Settled.same {fields d : Document} (h : Settled fields d)
    (hd : (Value.document d).IsRegular) : (d.writeEach fields).same d = true := by
  rcases h with heq | hsame
  · rw [heq]
    exact Value.same_self hd
  · exact hsame

/-- Setting regular values in a regular document leaves it regular. -/
private theorem isRegular_of_updatedBy {fields d d' : Document}
    (hfields : ∀ e ∈ fields, e.2.IsRegular) (hd : (Value.document d).IsRegular)
    (h : d.updatedBy [("$set", .document fields)] = .ok d') : (Value.document d').IsRegular := by
  rw [updatedBy_set] at h
  obtain rfl := Except.ok.inj h
  exact Value.All.writeEach Value.keptByPut_isRegular hd hfields

end Document

namespace Collection

variable {name : String} {fields : Document} {reply : UpdateReply} {c c' : Collection}

/-! ### The loop over the positions -/

/-- Setting values in settled documents changes nothing: one that is written is written as it is. -/
private theorem updateEach_settled (name : String) {positions : List Nat}
    (h : ∀ i ∈ positions, ∀ d, c.documents[i]? = some d → Document.Settled fields d)
    (reply : UpdateReply) :
    (updateEach name [("$set", .document fields)] positions reply c).2 = c := by
  refine updateEach_keeps (P := (· = c)) (fun i hi c' d u hc' hd hu hchanged _ => ?_) reply rfl
  subst hc'
  rw [Document.updatedBy_set] at hu
  obtain rfl := Except.ok.inj hu
  have heq : d.writeEach fields = d := (h i hi d hd).resolve_right (Bool.eq_false_iff.mp hchanged)
  obtain ⟨hlt, rfl⟩ := List.getElem?_eq_some_iff.mp hd
  rw [heq, List.set_getElem_self]

/-- A document that stays the same in storage is matched but not counted as modified. -/
private theorem updateAt_same (name : String) {i : Nat}
    (h : ∀ d, c.documents[i]? = some d → (d.writeEach fields).same d = true)
    (reply : UpdateReply) :
    ∃ n, updateAt name [("$set", .document fields)] i reply c = (.ok ⟨n, reply.modified⟩, c) := by
  rw [updateAt]
  rcases hd : c.documents[i]? with _ | d
  · exact ⟨reply.matched, rfl⟩
  · dsimp only
    rw [Document.updatedBy_set]
    exact ⟨reply.matched + 1, if_pos (h d hd)⟩

/-- Documents that stay the same in storage are not counted as modified. -/
private theorem updateEach_same (name : String) {positions : List Nat}
    (h : ∀ i ∈ positions, ∀ d, c.documents[i]? = some d → (d.writeEach fields).same d = true)
    (reply : UpdateReply) :
    ∃ n, updateEach name [("$set", .document fields)] positions reply c =
      (.ok ⟨n, reply.modified⟩, c) := by
  induction positions generalizing reply with
  | nil => exact ⟨reply.matched, rfl⟩
  | cons i positions ih =>
    obtain ⟨hi, hrest⟩ := List.forall_mem_cons.mp h
    obtain ⟨n, hstep⟩ := updateAt_same name hi reply
    rw [updateEach, hstep]
    exact ih hrest ⟨n, reply.modified⟩

/-! ### The collection -/

section Repeated

variable [RegexEngine] {statement : UpdateStatement}
  (hupdate : statement.update = [("$set", .document fields)])
  (hmulti : statement.multi = true) (h : update name [statement] c = (.ok reply, c'))

include hupdate hmulti h

/-- **After an update** every document that its filter selects is settled. -/
theorem settled_of_update {i : Nat} {d : Document} (hd : c'.documents[i]? = some d)
    (hsatisfies : d.satisfies statement.filter = .ok true) : Document.Settled fields d := by
  obtain ⟨positions, htargets, heach⟩ := exists_targets_of_update h
  rw [hupdate] at heach
  obtain ⟨hothers, hset⟩ := updateEach_set (nodup_of_targets htargets) heach
  have hi : i ∈ positions := by
    by_contra hnot
    -- It was there before, and would have been selected then.
    have hbefore : c.documents[i]? = some d := hothers i hnot ▸ hd
    have htarget := mem_of_targets hmulti htargets hbefore hsatisfies
    rw [Nat.zero_add] at htarget
    exact hnot htarget
  obtain ⟨before, hbefore, -⟩ := exists_of_mem_targets htargets hi
  obtain ⟨after, hafter, hsetTo⟩ := hset i hi before hbefore
  obtain rfl := Option.some.inj (hd.symm.trans hafter)
  exact hsetTo.settled

/-- The targets of the update when it is repeated are settled. -/
private theorem settled_of_targets {positions : List Nat}
    (htargets : targets statement 0 c'.documents = .ok positions) :
    ∀ i ∈ positions, ∀ d, c'.documents[i]? = some d → Document.Settled fields d := by
  intro i hi d hd
  obtain ⟨target, htarget, hsatisfies⟩ := exists_of_mem_targets htargets hi
  obtain rfl := Option.some.inj (hd.symm.trans htarget)
  exact settled_of_update hupdate hmulti h hd hsatisfies

/-- **Repeating an update** leaves the collection as it is. -/
theorem update_again : (update name [statement] c').2 = c' := by
  rcases htargets : targets statement 0 c'.documents with cause | positions
  · rw [update, updateAll, htargets]
  · rw [update_of_targets htargets, hupdate]
    exact updateEach_settled name (settled_of_targets hupdate hmulti h htargets) ⟨0, 0⟩

/-- It modifies no document, if all are regular. -/
private theorem modified_update_again (hregular : ∀ d ∈ c'.documents, (Value.document d).IsRegular)
    {again : UpdateReply} (hagain : (update name [statement] c').1 = .ok again) :
    again.modified = 0 := by
  obtain ⟨positions, htargets, heach⟩ := exists_targets_of_update (Prod.ext hagain rfl)
  have hsame : ∀ i ∈ positions, ∀ d, c'.documents[i]? = some d →
      (d.writeEach fields).same d = true := fun i hi d hd =>
    (settled_of_targets hupdate hmulti h htargets i hi d hd).same
      (hregular d (List.mem_of_getElem? hd))
  obtain ⟨n, hrun⟩ := updateEach_same name hsame ⟨0, 0⟩
  rw [hupdate, hrun] at heach
  obtain rfl := Except.ok.inj (Prod.mk.inj heach).1
  rfl

end Repeated

/-- An update that sets regular values keeps all documents regular. -/
private theorem forall_isRegular_update [RegexEngine] {statement : UpdateStatement}
    (hupdate : statement.update = [("$set", .document fields)])
    (hfields : ∀ e ∈ fields, e.2.IsRegular)
    (hc : ∀ d ∈ c.documents, (Value.document d).IsRegular) :
    ∀ d ∈ (update name [statement] c).2.documents, (Value.document d).IsRegular := by
  refine forall_updateAll name (p := fun d => (Value.document d).IsRegular) ?_ ⟨0, 0⟩ hc
  intro next hnext d d' hd hd'
  obtain rfl := List.mem_singleton.mp hnext
  exact Document.isRegular_of_updatedBy hfields hd (hupdate ▸ hd')

end Collection

/-! ### The update of a store -/

namespace Store

variable {s s' : Store} {h : Handle} {name : String} {statement : UpdateStatement}
  {fields : Document} {reply : UpdateReply}

/-- An update that succeeds has a collection to go to. -/
private theorem exists_collection_of_update [RegexEngine] {command : UpdateCommand}
    (hreply : (s.update h command).1 = .ok reply) :
    ∃ c, s.collection? h command.collection = some c := by
  rcases hcat : s.catalog? h with _ | cat
  · rw [update, run, catalog?_record, hcat] at hreply
    cases hreply
  · exact ⟨cat.collection command.collection, by rw [collection?, hcat, Option.map_some]⟩

/-- Repeating an update leaves all collections as they are, and modifies no document if those of its
collection, and the values that it sets, are regular. -/
private theorem update_again [RegexEngine]
    (hupdate : statement.update = [("$set", .document fields)]) (hmulti : statement.multi = true)
    (hfirst : s.update h ⟨name, [statement]⟩ = (.ok reply, s')) :
    (∀ h' name', (s'.update h ⟨name, [statement]⟩).2.collection? h' name' =
        s'.collection? h' name') ∧
      ((∀ c, s.collection? h name = some c → ∀ d ∈ c.documents, (Value.document d).IsRegular) →
        (∀ e ∈ fields, e.2.IsRegular) →
        ∀ again, (s'.update h ⟨name, [statement]⟩).1 = .ok again → again.modified = 0) := by
  obtain ⟨c, hc⟩ := exists_collection_of_update (congrArg Prod.fst hfirst)
  obtain ⟨hreply, hwrites⟩ := writes_update ⟨name, [statement]⟩ hc
  rw [hfirst] at hreply hwrites
  have hrun : Collection.update name [statement] c =
      (.ok reply, (Collection.update name [statement] c).2) := Prod.ext hreply.symm rfl
  obtain ⟨hagain, hwritesAgain⟩ := writes_update ⟨name, [statement]⟩ hwrites.collection_eq
  rw [Collection.update_again hupdate hmulti hrun] at hwritesAgain
  refine ⟨hwritesAgain.collection?_eq hwrites.collection_eq, fun hdocuments hfields again hok => ?_⟩
  exact Collection.modified_update_again hupdate hmulti hrun
    (Collection.forall_isRegular_update hupdate hfields (hdocuments c hc)) (hagain.symm.trans hok)

end Store

/-! ### Update queries -/

/-- The command that an update of one row is compiled to. -/
private theorem Query.exists_of_compile_update {q : Query} {row : List Operand} {plan : QueryPlan}
    (hupdate : q.action = .update) (hinput : q.input = [row]) (h : q.compile = .ok plan) :
    ∃ filter keys fields, QueryPlan.rowDocument keys row = .ok fields ∧
      plan = .update ⟨q.schema, [⟨filter, [("$set", .document fields)], true⟩]⟩ := by
  rw [compile, hupdate, hinput] at h
  obtain ⟨filter, -, h⟩ := bind_eq_ok_iff.mp h
  obtain ⟨documents, hdocuments, h⟩ := bind_eq_ok_iff.mp h
  obtain rfl := Except.ok.inj h
  obtain ⟨keys, -, hdocuments⟩ := bind_eq_ok_iff.mp hdocuments
  obtain ⟨fields, hfields, hdocuments⟩ := bind_eq_ok_iff.mp hdocuments
  obtain ⟨rest, hrest, hdocuments⟩ := bind_eq_ok_iff.mp hdocuments
  obtain rfl := Except.ok.inj hrest
  obtain rfl := Except.ok.inj hdocuments
  exact ⟨filter, keys, fields, hfields, rfl⟩

namespace Database

/-- Running an update has the store perform it, and reports how many documents it modified. -/
private theorem run_update_store [RegexEngine] (db : Database) (command : UpdateCommand)
    (s : Server) :
    db.run (.update command) s =
      (.ofCount (((s.store.update db.connection.handle command).1.mapError .store).map
          (·.modified)),
        { s with store := (s.store.update db.connection.handle command).2 }) := rfl

variable {db : Database} {s : Server} {q : Query} {row : List Operand}

/-- **Repeating an update changes nothing.** When an update of one row, of whatever fields, has
succeeded, executing it again leaves every collection on every handle as it is. If there is no NaN
in the documents of its collection and in the values of the row, and no document among them has a
key twice, the second execution reports that it modified no document, provided that it succeeds. -/
theorem execute_again [RegexEngine] (hupdate : q.action = .update) (hinput : q.input = [row])
    (hfirst : (db.execute q s).1.ending = .ok ()) :
    (∀ h name, (db.execute q (db.execute q s).2).2.store.collection? h name =
        (db.execute q s).2.store.collection? h name) ∧
      ((∀ c, s.store.collection? db.connection.handle q.schema = some c →
          ∀ d ∈ c.documents, (Value.document d).IsRegular) →
        (∀ operand ∈ row, ∀ v, operand.encode = .ok v → v.IsRegular) →
        (db.execute q (db.execute q s).2).1.ending = .ok () →
        (db.execute q (db.execute q s).2).1 = .single (.ofCount 0)) := by
  obtain ⟨plan, hplan, hexecute⟩ := exists_plan_of_ending hfirst
  have hagain : ∀ s, db.execute q s = db.run plan s := fun s => by rw [execute, hplan]
  obtain ⟨filter, keys, fields, hfields, rfl⟩ :=
    Query.exists_of_compile_update hupdate hinput hplan
  simp only [hagain, run_update_store] at hfirst ⊢
  rcases hreply : s.store.update db.connection.handle
      ⟨q.schema, [⟨filter, [("$set", .document fields)], true⟩]⟩ with ⟨cause | reply, s'⟩
  · rw [hreply] at hfirst
    cases hfirst
  obtain ⟨hcollections, hmodified⟩ := Store.update_again rfl rfl hreply
  refine ⟨hcollections, fun hdocuments hrow hending => ?_⟩
  rcases hsecond : (s'.update db.connection.handle
      ⟨q.schema, [⟨filter, [("$set", .document fields)], true⟩]⟩).1 with cause | again
  · rw [hsecond] at hending
    cases hending
  · have hzero : again.modified = 0 := hmodified hdocuments
      (QueryPlan.forall_rowDocument hfields hrow) again hsecond
    change Outcome.single (.ofCount again.modified) = _
    rw [hzero]

/-- An update of the place of every note, and then of the city in it, which replaces the place. -/
def replacePlaces : Query where
  schema := "notes"
  action := .update
  fields := [.single (.name "place") "notes", .path [.name "place", .name "city"] "notes"]
  input := [[.bind (.string "Rome"), .bind (.string "Paris")]]

attribute [local instance] Runtime.engine

/-- Both notes are modified the first time, and none the second time. -/
theorem execute_again_replacePlaces :
    ∃ first second, (ofConnection .sound).execute replacePlaces placedNotes = first ∧
      (ofConnection .sound).execute replacePlaces first.2 = second ∧
      first.1 = .single (.ofCount 2) ∧ second.1 = .single (.ofCount 0) ∧
      ∀ h name, second.2.store.collection? h name = first.2.store.collection? h name := by
  have hfirst : ((ofConnection .sound).execute replacePlaces placedNotes).1 =
      .single (.ofCount 2) := Outcome.ext (by decide +kernel) (by decide +kernel)
  have hsecond : ((ofConnection .sound).execute replacePlaces
      ((ofConnection .sound).execute replacePlaces placedNotes).2).1.ending = .ok () := by
    decide +kernel
  have hending : ((ofConnection .sound).execute replacePlaces placedNotes).1.ending = .ok () := by
    rw [hfirst]
    rfl
  obtain ⟨hcollections, hmodified⟩ := execute_again rfl rfl hending
  refine ⟨_, _, rfl, rfl, hfirst, hmodified ?_ ?_ hsecond, hcollections⟩
  · intro c hc
    obtain rfl := Option.some.inj hc
    decide
  · intro operand hoperand v hv
    simp only [List.mem_cons, List.not_mem_nil, or_false] at hoperand
    rcases hoperand with rfl | rfl
    · obtain rfl := Except.ok.inj hv
      decide
    · obtain rfl := Except.ok.inj hv
      decide

end Database

end DocQuery
