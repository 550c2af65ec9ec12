import DocQuery.Proofs.CollectionWrites
import DocQuery.Proofs.UpdateRuns
import DocQuery.Proofs.WrittenPaths
import DocQuery.Runtime.Regex.Engine

/-!
# Updates and identities

The replacement of a document keeps its identity, whatever it says about it itself. The operators
of an update do so where none of their paths leads to the identity (`Document.SparesIdentity`), and
then all documents of a store keep theirs, in their order, whether or not the update succeeds
(`Store.identities_update`).

Nothing keeps an operator from the identity, though: set there, another identity takes its place,
and removed, it leaves documents without one (`Store.identities_renumber`).
-/

namespace DocQuery

/-! ### One document -/

namespace Document

/-- The paths that the operators of an update are given. -/
def operatorPaths (operators : Document) : List String :=
  operators.flatMap fun e => keys (e.2.document?.getD [])

/-- An update whose operators have no path that begins with the identity. One that replaces
documents has no operators. -/
def SparesIdentity (update : Document) : Prop :=
  (keys update).head?.any isOperator = true →
    ∀ path ∈ update.operatorPaths, (Path.segments path).head? ≠ some idKey

instance (update : Document) : Decidable update.SparesIdentity :=
  inferInstanceAs (Decidable (_ → _))

/-- The replacement of a document has its identity. -/
private theorem value?_replacedBy (d replacement : Document) :
    (d.replacedBy replacement).value? idKey = d.value? idKey := by
  rw [replacedBy]
  rcases hid : d.value? idKey with _ | id
  · refine value?_eq_none_iff.mpr fun hmem => ?_
    obtain ⟨e, he, hkey⟩ := List.mem_map.mp hmem
    simpa [hkey] using (List.mem_filter.mp he).2
  · rfl

/-- Writes at paths that begin with another key leave a key as it is. -/
private theorem value?_writeEach {key : String} {fields : Document}
    (h : ∀ path ∈ keys fields, (Path.segments path).head? ≠ some key) (d : Document) :
    (d.writeEach fields).value? key = d.value? key := by
  induction fields generalizing d with
  | nil => rfl
  | cons e fields ih =>
    obtain ⟨he, hrest⟩ := List.forall_mem_cons.mp h
    exact (ih hrest (d.write e.1 e.2)).trans (value?_write he d e.2)

/-- So do removals of such paths. -/
private theorem value?_removeEach {key : String} {paths : List String}
    (h : ∀ path ∈ paths, (Path.segments path).head? ≠ some key) (d : Document) :
    (d.removeEach paths).value? key = d.value? key := by
  induction paths generalizing d with
  | nil => rfl
  | cons path paths ih =>
    obtain ⟨hpath, hrest⟩ := List.forall_mem_cons.mp h
    exact (ih hrest (d.remove path)).trans (value?_remove hpath d)

/-- Operators leave a key as it is that none of their paths begins with. -/
private theorem value?_applyOperators {key : String} {operators d d' : Document}
    (hpaths : ∀ path ∈ operators.operatorPaths, (Path.segments path).head? ≠ some key)
    (h : d.applyOperators operators = .ok d') : d'.value? key = d.value? key := by
  induction operators generalizing d with
  | nil =>
    obtain rfl := Except.ok.inj h
    rfl
  | cons e operators ih =>
    obtain ⟨name, a | items | fields⟩ := e
    · cases h
    · cases h
    rw [operatorPaths, List.flatMap_cons, List.forall_mem_append] at hpaths
    obtain ⟨hfirst, hrest⟩ := hpaths
    unfold applyOperators at h
    dsimp only at h
    split at h
    · exact (ih hrest h).trans (value?_writeEach hfirst d)
    · exact (ih hrest h).trans (value?_removeEach hfirst d)
    · cases h

/-- **An update that spares identities** leaves a document its own. -/
theorem SparesIdentity.value?_eq {update : Document} (hupdate : update.SparesIdentity)
    {d d' : Document} (h : d.updatedBy update = .ok d') : d'.value? idKey = d.value? idKey := by
  rw [updatedBy] at h
  split at h
  · next hoperator => exact value?_applyOperators (hupdate hoperator) h
  · obtain rfl := Except.ok.inj h
    exact value?_replacedBy d update

end Document

/-! ### A collection -/

namespace Collection

/-- The identities of the documents, in their order. -/
def identities (c : Collection) : List (Option Value) := c.documents.map (·.value? idKey)

/-- A document may be replaced by one of the same identity. -/
private theorem identities_set {c : Collection} {i : Nat} {d u : Document}
    (hd : c.documents[i]? = some d) (h : u.value? idKey = d.value? idKey) :
    identities { c with documents := c.documents.set i u } = c.identities := by
  obtain ⟨hlt, rfl⟩ := List.getElem?_eq_some_iff.mp hd
  calc (c.documents.set i u).map (·.value? idKey)
      = (c.documents.map (·.value? idKey)).set i (u.value? idKey) := List.map_set ..
    _ = (c.documents.map (·.value? idKey)).set i (c.documents[i].value? idKey) := by rw [h]
    _ = (c.documents.set i c.documents[i]).map (·.value? idKey) := (List.map_set ..).symm
    _ = c.identities := by rw [List.set_getElem_self, identities]

/-- Updates that spare identities leave the documents theirs. -/
private theorem identities_updateAll [RegexEngine] (name : String)
    {statements : List UpdateStatement}
    (h : ∀ statement ∈ statements, statement.update.SparesIdentity) (reply : UpdateReply)
    (c : Collection) : (updateAll name statements reply c).2.identities = c.identities := by
  refine updateAll_keeps (P := fun c' => c'.identities = c.identities)
    (fun statement hstatement i c' d u hc' hd hu _ _ => ?_) reply rfl
  exact (identities_set hd ((h statement hstatement).value?_eq hu)).trans hc'

end Collection

/-! ### A store -/

namespace Store

/-- **Updates keep identities**, if they spare them. Whether an update replaces documents, sets or
removes paths of them, or several of these one after another, and whether or not it succeeds, the
sequence of identities is the same afterwards in every collection on every handle. -/
theorem identities_update [RegexEngine] {command : UpdateCommand}
    (hspares : ∀ statement ∈ command.updates, statement.update.SparesIdentity) (s : Store)
    (h h' : Handle) (name : String) :
    ((s.update h command).2.collection? h' name).map Collection.identities =
      (s.collection? h' name).map Collection.identities := by
  rcases hc : s.collection? h command.collection with _ | c
  · -- A transaction that has finished has nothing to update.
    have hcat : s.catalog? h = none := Option.map_eq_none_iff.mp hc
    rw [update, run, catalog?_record, hcat, collection?, catalog?_record, collection?]
  obtain ⟨-, hwrites⟩ := writes_update command hc
  have hkept : (Collection.update command.collection command.updates c).2.identities =
      c.identities := Collection.identities_updateAll command.collection hspares ⟨0, 0⟩ c
  by_cases hhandle : h' = h
  · subst hhandle
    by_cases hname : name = command.collection
    · rw [hname, hwrites.collection_eq, hc, Option.map_some, Option.map_some, hkept]
    · rw [hwrites.others name hname]
  · rw [collection?, hwrites.handles h' hhandle, collection?]

/-- A store of two users. -/
def twoUsers : Store :=
  ⟨⟨[("users", ⟨[[(idKey, .int32 1), ("name", .string "a")],
    [(idKey, .int32 2), ("name", .string "b")]], []⟩)]⟩, [], []⟩

/-- An update that replaces the first user by a document of another identity, sets and removes paths
of both, and then fails on an operator that there is not. -/
def rewriteUsers : UpdateCommand :=
  ⟨"users", [⟨[(idKey, .int32 1)], [(idKey, .int32 7), ("name", .string "c")], false⟩,
    ⟨[], [("$set", .document [("home.city", .string "Oslo")]),
      ("$unset", .document [("name", .null)])], true⟩,
    ⟨[], [("$push", .document [])], true⟩]⟩

attribute [local instance] Runtime.engine

/-- Both users keep their identities. -/
theorem identities_update_rewriteUsers :
    (∀ statement ∈ rewriteUsers.updates, statement.update.SparesIdentity) ∧
      (twoUsers.update .base rewriteUsers).1 = .error (.unknownOperator "$push") ∧
      ((twoUsers.update .base rewriteUsers).2.collection? .base "users").map
        Collection.identities = some [some (.int32 1), some (.int32 2)] := by
  have hspares : ∀ statement ∈ rewriteUsers.updates, statement.update.SparesIdentity := by decide
  exact ⟨hspares, rfl, identities_update hspares twoUsers .base .base "users"⟩

/-- An update that sets another identity in the first user. -/
def renumberUser : UpdateCommand :=
  ⟨"users", [⟨[(idKey, .int32 1)], [("$set", .document [(idKey, .int32 7)])], false⟩]⟩

/-- An update that removes the identities of all users. -/
def unnumberUsers : UpdateCommand :=
  ⟨"users", [⟨[], [("$unset", .document [(idKey, .null)])], true⟩]⟩

/-- **Operators reach the identity.** Both updates succeed. After the first one a user has another
identity, and after the second one no user has any. -/
theorem identities_renumber :
    (twoUsers.collection? .base "users").map Collection.identities =
        some [some (.int32 1), some (.int32 2)] ∧
      (twoUsers.update .base renumberUser).1 = .ok ⟨1, 1⟩ ∧
      ((twoUsers.update .base renumberUser).2.collection? .base "users").map
        Collection.identities = some [some (.int32 7), some (.int32 2)] ∧
      (twoUsers.update .base unnumberUsers).1 = .ok ⟨2, 2⟩ ∧
      ((twoUsers.update .base unnumberUsers).2.collection? .base "users").map
        Collection.identities = some [none, none] ∧
      [some (Value.int32 1), some (.int32 2)] ≠ [some (.int32 7), some (.int32 2)] ∧
      [some (Value.int32 1), some (.int32 2)] ≠ [none, none] :=
  ⟨rfl, rfl, rfl, rfl, rfl, by decide, by decide⟩

end Store

end DocQuery
