import DocQuery.Proofs.Replies

/-!
# Writes to one collection

A command that writes goes to one collection on one handle. `Store.collection?` is the collection
that a handle finds under a name, and `Store.Writes` says that a write left there what it should
and touched nothing else that any handle can reach; it holds of every command that is run on a
catalog by `Catalog.modify` (`Store.writes_modify`).
-/

namespace DocQuery

namespace Store

/-- The collection under a name of the catalog that a handle works on. -/
def collection? (h : Handle) (name : String) (s : Store) : Option Collection :=
  (s.catalog? h).map (·.collection name)

/-- A store after a write: on one handle one collection has become the given one, and every other
collection, on this handle or on another, is as it was. -/
structure Writes (h : Handle) (name : String) (content : Collection) (s s' : Store) : Prop where
  collection_eq : s'.collection? h name = some content
  others : ∀ other ≠ name, s'.collection? h other = s.collection? h other
  handles : ∀ h' ≠ h, s'.catalog? h' = s.catalog? h'

variable {s s' : Store} {h : Handle} {name : String} {c : Collection}

/-- A write that leaves a collection as it is changes no collection on any handle. -/
theorem Writes.collection?_eq (hwrites : s.Writes h name c s')
    (hc : s.collection? h name = some c) (h' : Handle) (name' : String) :
    s'.collection? h' name' = s.collection? h' name' := by
  by_cases hhandle : h' = h
  · subst hhandle
    by_cases hname : name' = name
    · rw [hname, hwrites.collection_eq, hc]
    · exact hwrites.others name' hname
  · rw [collection?, collection?, hwrites.handles h' hhandle]

/-- A handle that finds a collection has a catalog to work on. -/
private theorem exists_catalog_of_collection? (hc : s.collection? h name = some c) :
    ∃ cat, s.catalog? h = some cat ∧ cat.collection name = c :=
  Option.map_eq_some_iff.mp hc

/-- **A write to one collection** is answered by that collection, and leaves there what it makes of
it. -/
theorem writes_modify {α : Type} (hc : s.collection? h name = some c)
    (f : Collection → Except StoreError α × Collection) (command : Command) :
    ((s.record command).run h (Catalog.modify · name f)).1 = (f c).1 ∧
      s.Writes h name (f c).2 ((s.record command).run h (Catalog.modify · name f)).2 := by
  obtain ⟨cat, hcat, rfl⟩ := exists_catalog_of_collection? hc
  rw [run_of_catalog? hcat]
  obtain ⟨hwritten, hhandles⟩ := catalog?_written hcat command
    (cat.withCollection name (f (cat.collection name)).2)
  refine ⟨rfl, ?_, fun other hother => ?_, hhandles⟩
  · rw [collection?, Catalog.modify, hwritten, Option.map_some,
      Catalog.collection_withCollection_self]
  · rw [collection?, Catalog.modify, hwritten, collection?, hcat, Option.map_some, Option.map_some,
      Catalog.collection_withCollection_of_ne cat _ (Ne.symm hother)]

/-- An insertion is a write to its collection. -/
theorem writes_insert (fresh : Nat → ObjectId) (command : InsertCommand)
    (hc : s.collection? h command.collection = some c) :
    (s.insert h fresh command).1 =
        (Collection.insert command.collection fresh command.documents c).1 ∧
      s.Writes h command.collection
        (Collection.insert command.collection fresh command.documents c).2
        (s.insert h fresh command).2 :=
  writes_modify hc _ (.insert command)

/-- So is an update. -/
theorem writes_update [RegexEngine] (command : UpdateCommand)
    (hc : s.collection? h command.collection = some c) :
    (s.update h command).1 = (Collection.update command.collection command.updates c).1 ∧
      s.Writes h command.collection
        (Collection.update command.collection command.updates c).2 (s.update h command).2 :=
  writes_modify hc _ (.update command)

/-- A deletion is one, too. -/
theorem writes_delete [RegexEngine] (command : DeleteCommand)
    (hc : s.collection? h command.collection = some c) :
    (s.delete h command).1 = (Collection.delete command.filter command.limit c).1 ∧
      s.Writes h command.collection
        (Collection.delete command.filter command.limit c).2 (s.delete h command).2 :=
  writes_modify hc _ (.delete command)

/-- And so is the creation of indexes. -/
theorem writes_createIndexes (command : IndexCommand)
    (hc : s.collection? h command.collection = some c) :
    (s.createIndexes h command).1 =
        (Collection.createIndexes command.collection command.indexes c).1 ∧
      s.Writes h command.collection
        (Collection.createIndexes command.collection command.indexes c).2
        (s.createIndexes h command).2 :=
  writes_modify hc _ (.createIndexes command)

end Store

end DocQuery
