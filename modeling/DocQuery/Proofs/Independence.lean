import DocQuery.Connection
import DocQuery.Proofs.Isolation
import DocQuery.Runtime.Regex.Engine

/-!
# Operations on different collections

Two sequences of operations, each on a collection of its own, can be served in any order that keeps
the order of each. The main theorem, `Store.independent_of_order`, says that no order can be told
from another: every operation gets the same reply, the same collections are left, and no other
collection is ever changed. This includes operations that fail after they did part of their work.

An operation on a collection is local (`Operation.exists_local`): its reply and what it leaves there
depend on what it finds there, and it leaves all other collections as they are. From this one step
the run follows by induction on the interleaving (`Operation.interleaves_exchanges`): each sequence
hears and leaves on its collection what it does alone. Pipelines, which can read any collection, are
not operations on one.
-/

namespace DocQuery

/-! ### Interleavings -/

/-- A list is made of two others by taking turns in some way, each in its order. -/
inductive Interleaves {α : Type} : List α → List α → List α → Prop
  | nil : Interleaves [] [] []
  | left {x : α} {xs ys zs : List α} (h : Interleaves xs ys zs) : Interleaves (x :: xs) ys (x :: zs)
  | right {y : α} {xs ys zs : List α} (h : Interleaves xs ys zs) :
      Interleaves xs (y :: ys) (y :: zs)

namespace Interleaves

variable {α β : Type} {xs ys zs : List α}

private theorem mem_or_mem (h : Interleaves xs ys zs) {z : α} (hz : z ∈ zs) : z ∈ xs ∨ z ∈ ys := by
  induction h with
  | nil => cases hz
  | left h ih =>
    rcases List.mem_cons.mp hz with rfl | hz
    · exact .inl List.mem_cons_self
    · exact (ih hz).imp_left (List.mem_cons_of_mem _)
  | right h ih =>
    rcases List.mem_cons.mp hz with rfl | hz
    · exact .inr List.mem_cons_self
    · exact (ih hz).imp_right (List.mem_cons_of_mem _)

private theorem map (f : α → β) (h : Interleaves xs ys zs) :
    Interleaves (xs.map f) (ys.map f) (zs.map f) := by
  induction h with
  | nil => exact .nil
  | left h ih => exact .left ih
  | right h ih => exact .right ih

end Interleaves

/-! ### Operations are local -/

/-- A command that writes to a collection leaves there what it makes of it, and the others as they
are. -/
private theorem Catalog.collection_modify {α : Type} (cat : Catalog) (name : String)
    (f : Collection → Except StoreError α × Collection) (other : String) :
    (cat.modify name f).2.collection other =
      if other = name then (f (cat.collection name)).2 else cat.collection other := by
  change (cat.withCollection name (f (cat.collection name)).2).collection other = _
  split
  · next h => rw [h, collection_withCollection_self]
  · next h => exact collection_withCollection_of_ne cat _ (Ne.symm h)

namespace Operation

/-- The collection that an operation is on. A pipeline is on none, since it can read all of them. -/
def collection? : Operation → Option String
  | .find c => some c.collection
  | .aggregate _ => none
  | .count c => some c.collection
  | .insert _ c => some c.collection
  | .update c => some c.collection
  | .delete c => some c.collection
  | .createIndexes c => some c.collection
  | .drop name => some name

/-- **Operations are local.** The reply to an operation on a collection and what it leaves there
are determined by what it finds there, and it leaves all other collections as they are. -/
theorem exists_local [RegexEngine] {o : Operation} {name : String} (h : o.collection? = some name) :
    ∃ f : Collection → Reply × Collection, ∀ cat : Catalog,
      (o.on cat).1 = (f (cat.collection name)).1 ∧
      ∀ other, (o.on cat).2.collection other =
        if other = name then (f (cat.collection name)).2 else cat.collection other := by
  -- An operation that reads leaves its collection, like all others.
  have hread : ∀ (cat : Catalog) (other : String), cat.collection other =
      if other = name then cat.collection name else cat.collection other := by
    intro cat other
    split
    · next h => rw [h]
    · rfl
  cases o with
  | find c =>
    obtain rfl := Option.some.inj h
    exact ⟨fun x => ((x.find c).map .documents, x), fun cat => ⟨rfl, hread cat⟩⟩
  | aggregate c => cases h
  | count c =>
    obtain rfl := Option.some.inj h
    exact ⟨fun x => ((x.count c.filter).map .number, x), fun cat => ⟨rfl, hread cat⟩⟩
  | insert fresh c =>
    obtain rfl := Option.some.inj h
    let f := Collection.insert c.collection fresh c.documents
    exact ⟨fun x => ((f x).1.map .number, (f x).2), fun cat => ⟨rfl, cat.collection_modify _ f⟩⟩
  | update c =>
    obtain rfl := Option.some.inj h
    let f := Collection.update c.collection c.updates
    exact ⟨fun x => ((f x).1.map .updated, (f x).2), fun cat => ⟨rfl, cat.collection_modify _ f⟩⟩
  | delete c =>
    obtain rfl := Option.some.inj h
    let f := Collection.delete c.filter c.limit
    exact ⟨fun x => ((f x).1.map .number, (f x).2), fun cat => ⟨rfl, cat.collection_modify _ f⟩⟩
  | createIndexes c =>
    obtain rfl := Option.some.inj h
    let f := Collection.createIndexes c.collection c.indexes
    exact ⟨fun x => ((f x).1.map fun () => .done, (f x).2),
      fun cat => ⟨rfl, cat.collection_modify _ f⟩⟩
  | drop c =>
    obtain rfl := Option.some.inj h
    exact ⟨fun _ => (.ok .done, .empty), fun cat => ⟨rfl, cat.collection_modify c
      fun _ => ((.ok () : Except StoreError Unit), .empty)⟩⟩

/-- An operation on a collection leaves the others as they are. -/
private theorem collection_on_of_ne [RegexEngine] {o : Operation} {name other : String}
    (h : o.collection? = some name) (hne : other ≠ name) (cat : Catalog) :
    (o.on cat).2.collection other = cat.collection other := by
  obtain ⟨f, hf⟩ := exists_local h
  rw [(hf cat).2 other, if_neg hne]

/-- On two catalogs with the same collection under a name, an operation on it is answered alike, and
leaves the same there. -/
theorem on_of_collection_eq [RegexEngine] {o : Operation} {name : String}
    (h : o.collection? = some name) {cat cat' : Catalog}
    (hsame : cat.collection name = cat'.collection name) :
    (o.on cat).1 = (o.on cat').1 ∧
      (o.on cat).2.collection name = (o.on cat').2.collection name := by
  obtain ⟨f, hf⟩ := exists_local h
  rw [(hf cat).1, (hf cat').1, (hf cat).2 name, (hf cat').2 name, hsame]
  exact ⟨rfl, rfl⟩

/-! ### Runs on a catalog -/

/-- The operations of a run, each with the reply that it gets. -/
def exchanges [RegexEngine] (os : List Operation) (cat : Catalog) : List (Operation × Reply) :=
  os.zip (onAll os cat).1

theorem exchanges_cons [RegexEngine] (o : Operation) (os : List Operation) (cat : Catalog) :
    exchanges (o :: os) cat = (o, (o.on cat).1) :: exchanges os (o.on cat).2 := rfl

theorem onAll_cons [RegexEngine] (o : Operation) (os : List Operation) (cat : Catalog) :
    (onAll (o :: os) cat).2 = (onAll os (o.on cat).2).2 := rfl

/-- A run of operations on other collections leaves a collection as it is. -/
private theorem collection_onAll_of_ne [RegexEngine] {name : String} {os : List Operation}
    (h : ∀ o ∈ os, ∃ own, o.collection? = some own ∧ name ≠ own) (cat : Catalog) :
    (onAll os cat).2.collection name = cat.collection name := by
  induction os generalizing cat with
  | nil => rfl
  | cons o os ih =>
    obtain ⟨⟨own, hown, hne⟩, hos⟩ := List.forall_mem_cons.mp h
    rw [onAll_cons, ih hos, collection_on_of_ne hown hne]

/-- The operations of an interleaving are on one of the two collections, and on no other. -/
private theorem exists_collection_of_interleaves {a b name : String} {as bs os : List Operation}
    (has : ∀ o ∈ as, o.collection? = some a) (hbs : ∀ o ∈ bs, o.collection? = some b)
    (hos : Interleaves as bs os) (hna : name ≠ a) (hnb : name ≠ b) :
    ∀ o ∈ os, ∃ own, o.collection? = some own ∧ name ≠ own := by
  intro o ho
  rcases hos.mem_or_mem ho with ho | ho
  · exact ⟨a, has o ho, hna⟩
  · exact ⟨b, hbs o ho, hnb⟩

section Interleaved

variable {a b : String} (hne : a ≠ b) {as bs os : List Operation}
  (has : ∀ o ∈ as, o.collection? = some a) (hbs : ∀ o ∈ bs, o.collection? = some b)
  (hos : Interleaves as bs os)

include hne has hbs hos

/-- **An interleaving on a catalog.** Each sequence hears and leaves on its collection what it does
alone, on any catalog that has the same there. -/
theorem interleaves_exchanges [RegexEngine] {cat catA catB : Catalog}
    (ha : cat.collection a = catA.collection a) (hb : cat.collection b = catB.collection b) :
    Interleaves (exchanges as catA) (exchanges bs catB) (exchanges os cat) ∧
      (onAll os cat).2.collection a = (onAll as catA).2.collection a ∧
      (onAll os cat).2.collection b = (onAll bs catB).2.collection b := by
  -- By induction on the interleaving, which keeps that the collections are the same.
  induction hos generalizing cat catA catB with
  | nil => exact ⟨.nil, ha, hb⟩
  | left h ih =>
    obtain ⟨hfirst, hrest⟩ := List.forall_mem_cons.mp has
    obtain ⟨hreply, ha'⟩ := on_of_collection_eq hfirst ha
    have hb' := (collection_on_of_ne hfirst hne.symm cat).trans hb
    obtain ⟨hheard, hleft⟩ := ih hrest hbs ha' hb'
    rw [exchanges_cons, exchanges_cons, hreply]
    exact ⟨.left hheard, hleft⟩
  | right h ih =>
    obtain ⟨hfirst, hrest⟩ := List.forall_mem_cons.mp hbs
    obtain ⟨hreply, hb'⟩ := on_of_collection_eq hfirst hb
    have ha' := (collection_on_of_ne hfirst hne cat).trans ha
    obtain ⟨hheard, hleft⟩ := ih has hrest ha' hb'
    rw [exchanges_cons, exchanges_cons, hreply]
    exact ⟨.right hheard, hleft⟩

/-- The collections after an interleaving are those of each sequence after it alone, and the others
as they were. -/
private theorem collection_onAll_interleaved [RegexEngine] (cat : Catalog) :
    (onAll os cat).2.collection = fun name =>
      if name = a then (onAll as cat).2.collection a
      else if name = b then (onAll bs cat).2.collection b else cat.collection name := by
  have hsame : ∀ name, cat.collection name = cat.collection name := fun _ => rfl
  obtain ⟨-, ha, hb⟩ := interleaves_exchanges hne has hbs hos (hsame a) (hsame b)
  funext name
  split
  · next h => rw [h, ha]
  split
  · next h => rw [h, hb]
  · next hna hnb =>
    exact collection_onAll_of_ne (exists_collection_of_interleaves has hbs hos hna hnb) cat

end Interleaved

end Operation

namespace Store

/-! ### Runs on a handle -/

/-- The store after a run of operations on a handle. -/
def afterOn [RegexEngine] (h : Handle) (os : List Operation) (s : Store) : Store :=
  s.after (os.map (.command h))

/-- The operations of a run on a handle, each with the reply that it gets. -/
def exchanges [RegexEngine] (h : Handle) (os : List Operation) (s : Store) :
    List (Operation × Reply) :=
  os.zip (heard h (os.map (.command h)) s)

theorem exchanges_cons [RegexEngine] (h : Handle) (o : Operation) (os : List Operation)
    (s : Store) :
    s.exchanges h (o :: os) = (o, (s.perform (.command h o)).1) ::
      (s.perform (.command h o)).2.exchanges h os := by
  rw [exchanges, exchanges, List.map_cons, heard]
  simp [Request.operationOn?]

theorem afterOn_cons [RegexEngine] (h : Handle) (o : Operation) (os : List Operation) (s : Store) :
    s.afterOn h (o :: os) = (s.perform (.command h o)).2.afterOn h os := rfl

/-- A run on a handle with a catalog is a run on this catalog. -/
private theorem run_of_catalog [RegexEngine] {s : Store} {h : Handle} {cat : Catalog}
    (hcat : s.catalog? h = some cat) (os : List Operation) :
    s.exchanges h os = Operation.exchanges os cat ∧
      (s.afterOn h os).catalog? h = some (Operation.onAll os cat).2 := by
  induction os generalizing s cat with
  | nil => exact ⟨rfl, hcat⟩
  | cons o os ih =>
    obtain ⟨hreply, hnext⟩ := perform_command_of_open hcat o
    obtain ⟨hheard, hleft⟩ := ih hnext
    rw [exchanges_cons, afterOn_cons, hreply, hheard]
    exact ⟨rfl, hleft⟩

/-- A run on a handle without a catalog is refused. -/
private theorem run_of_finished [RegexEngine] {s : Store} {h : Handle} (hcat : s.catalog? h = none)
    (os : List Operation) :
    s.exchanges h os = os.map (fun o => (o, .error .transactionFinished)) ∧
      (s.afterOn h os).catalog? h = none := by
  induction os generalizing s with
  | nil => exact ⟨rfl, hcat⟩
  | cons o os ih =>
    have hstep : s.perform (.command h o) = (.error .transactionFinished, s.record o.command) := by
      rw [perform_command, hcat]
    obtain ⟨hheard, hleft⟩ := ih (s := s.record o.command) hcat
    rw [exchanges_cons, afterOn_cons, hstep, hheard]
    exact ⟨rfl, hleft⟩

/-- A run on a handle leaves the catalogs of the others. -/
private theorem catalog?_afterOn_of_ne [RegexEngine] {h h' : Handle} (hne : h ≠ h')
    (os : List Operation) (s : Store) :
    (s.afterOn h os).catalog? h' = s.catalog? h' := by
  induction os generalizing s with
  | nil => rfl
  | cons o os ih => rw [afterOn_cons, ih, catalog?_perform_command_of_ne s hne]

/-- A run of operations on other collections leaves a collection as it is, on every handle. -/
private theorem collection_afterOn_of_ne [RegexEngine] {name : String} {os : List Operation}
    (hos : ∀ o ∈ os, ∃ own, o.collection? = some own ∧ name ≠ own) (s : Store) (h h' : Handle) :
    ((s.afterOn h os).catalog? h').map (·.collection name) =
      (s.catalog? h').map (·.collection name) := by
  by_cases hh : h = h'
  · subst hh
    rcases hcat : s.catalog? h with _ | cat
    · rw [(run_of_finished hcat os).2]
    · rw [(run_of_catalog hcat os).2, Option.map_some, Operation.collection_onAll_of_ne hos]
      rfl
  · rw [catalog?_afterOn_of_ne hh]

section Interleaved

variable {a b : String} (hne : a ≠ b) {as bs os : List Operation}
  (has : ∀ o ∈ as, o.collection? = some a) (hbs : ∀ o ∈ bs, o.collection? = some b)
  (hos : Interleaves as bs os)

include hne has hbs hos

/-- **An interleaving on a handle.** Each sequence gets the replies that it gets alone. -/
theorem interleaves_exchanges [RegexEngine] (s : Store) (h : Handle) :
    Interleaves (s.exchanges h as) (s.exchanges h bs) (s.exchanges h os) := by
  rcases hcat : s.catalog? h with _ | cat
  · rw [(run_of_finished hcat as).1, (run_of_finished hcat bs).1, (run_of_finished hcat os).1]
    exact hos.map _
  · rw [(run_of_catalog hcat as).1, (run_of_catalog hcat bs).1, (run_of_catalog hcat os).1]
    exact (Operation.interleaves_exchanges hne has hbs hos rfl rfl).1

/-- Two interleavings leave the same collections, on every handle. -/
private theorem collection_afterOn_interleaved [RegexEngine] {os' : List Operation}
    (hos' : Interleaves as bs os') (s : Store) (h h' : Handle) :
    ((s.afterOn h os).catalog? h').map Catalog.collection =
      ((s.afterOn h os').catalog? h').map Catalog.collection := by
  by_cases hh : h = h'
  · subst hh
    rcases hcat : s.catalog? h with _ | cat
    · rw [(run_of_finished hcat os).2, (run_of_finished hcat os').2]
    · rw [(run_of_catalog hcat os).2, (run_of_catalog hcat os').2, Option.map_some,
        Option.map_some, Operation.collection_onAll_interleaved hne has hbs hos,
        Operation.collection_onAll_interleaved hne has hbs hos']
  · rw [catalog?_afterOn_of_ne hh, catalog?_afterOn_of_ne hh]

end Interleaved

/-- A run has one reply for each of its operations, in order. -/
private theorem map_fst_exchanges [RegexEngine] (h : Handle) (os : List Operation) (s : Store) :
    (s.exchanges h os).map Prod.fst = os := by
  induction os generalizing s with
  | nil => rfl
  | cons o os ih => rw [exchanges_cons, List.map_cons, ih]

/-- **Operations on different collections do not interfere.** Let two sequences of operations, one
on a collection and one on another, be served on a handle of a store in two orders that both keep
the order of each sequence. Then every operation gets the same reply in both. Both leave the same
documents and indexes in every collection of every handle. All other collections stay as they are
all along. -/
theorem independent_of_order [RegexEngine] {a b : String} (hne : a ≠ b)
    {as bs os os' : List Operation} (has : ∀ o ∈ as, o.collection? = some a)
    (hbs : ∀ o ∈ bs, o.collection? = some b) (hos : Interleaves as bs os)
    (hos' : Interleaves as bs os') (s : Store) (h : Handle) :
    (∃ xs ys, xs.map Prod.fst = as ∧ ys.map Prod.fst = bs ∧
      Interleaves xs ys (s.exchanges h os) ∧ Interleaves xs ys (s.exchanges h os')) ∧
    (∀ h', ((s.afterOn h os).catalog? h').map Catalog.collection =
      ((s.afterOn h os').catalog? h').map Catalog.collection) ∧
    ∀ served, served <+: os → ∀ name, name ≠ a → name ≠ b → ∀ h',
      ((s.afterOn h served).catalog? h').map (·.collection name) =
        (s.catalog? h').map (·.collection name) := by
  refine ⟨⟨s.exchanges h as, s.exchanges h bs, map_fst_exchanges h as s, map_fst_exchanges h bs s,
    interleaves_exchanges hne has hbs hos s h, interleaves_exchanges hne has hbs hos' s h⟩,
    collection_afterOn_interleaved hne has hbs hos hos' s h, ?_⟩
  intro served hserved name hna hnb h'
  have hothers := Operation.exists_collection_of_interleaves has hbs hos hna hnb
  exact collection_afterOn_of_ne (fun o ho => hothers o (hserved.subset ho)) s h h'

/-- Inserting three notes, of which the second repeats the first, and finding what was inserted. -/
def noteRun : List Operation :=
  [.insert Server.identity
    ⟨"notes", [[(idKey, .int32 1)], [(idKey, .int32 1)], [(idKey, .int32 2)]]⟩,
    .find ⟨"notes", [], none, none, none⟩]

/-- Inserting a user and removing all users. -/
def userRun : List Operation :=
  [.insert Server.identity ⟨"users", [[(idKey, .int32 1)]]⟩, .drop "users"]

attribute [local instance] Runtime.engine

/-- The insertion of notes that fails after the first of them is found the same way when the users
take turns with it. -/
theorem independent_of_order_noteRun :
    ∃ turns xs ys, xs.map Prod.fst = noteRun ∧ ys.map Prod.fst = userRun ∧
      Interleaves xs ys (empty.exchanges .base (noteRun ++ userRun)) ∧
      Interleaves xs ys (empty.exchanges .base turns) ∧
      (empty.exchanges .base turns).map Prod.snd =
        [.ok (.number 1), .error (.duplicateKey "notes" "_id_" "1"), .ok .done,
          .ok (.documents [[(idKey, .int32 1)]])] := by
  have hnotes : ∀ o ∈ noteRun, o.collection? = some "notes" := by
    simp [noteRun, Operation.collection?]
  have husers : ∀ o ∈ userRun, o.collection? = some "users" := by
    simp [userRun, Operation.collection?]
  have happended : Interleaves noteRun userRun (noteRun ++ userRun) :=
    .left (.left (.right (.right .nil)))
  have hturns : Interleaves noteRun userRun _ := .right (.left (.right (.left .nil)))
  obtain ⟨⟨xs, ys, hxs, hys, hheard, hheard'⟩, -⟩ :=
    independent_of_order (by decide) hnotes husers happended hturns empty .base
  exact ⟨_, xs, ys, hxs, hys, hheard, hheard', rfl⟩

end Store

end DocQuery
