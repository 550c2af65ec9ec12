import DocQuery.Proofs.InputRows
import DocQuery.Proofs.StorageEquality
import DocQuery.Proofs.WriteScope
import DocQuery.Runtime.Regex.Engine
import Mathlib.Control.Monad.Basic

/-!
# Reading back what was updated

An update of one row sets a value at the path of each of its fields, in every document that its
filter selects, and skips a document that this would leave the same in storage. Read back at these
paths, a document has what was given, whatever lay there before: if it was written, exactly that,
since the paths are apart (`Document.standsAt_writeEach`), and if it was skipped, something that
resembles it (`Value.Resembles`). So a zero keeps the sign that it had.

The main theorem is `Database.execute_updated`. Below it, `Document.SetTo` says what becomes of one
document, and the loop over the positions of an update is followed by one lemma for a step and one
for a run.
-/

namespace DocQuery

/-! ### One document -/

/-- A document after values were set in it: written, unless it was the same already. -/
def Document.SetTo (fields d d' : Document) : Prop :=
  d' = d.writeEach fields ∨ d' = d ∧ (d.writeEach fields).same d = true

/-- What was set at a path apart from the others is read back, but for what storage does not tell
apart. -/
private theorem Document.SetTo.exists_read {fields d d' : Document} (h : SetTo fields d d')
    (hpaths : fields.keys.Pairwise Path.Apart) {path : String} {v : Value}
    (hv : fields.value? path = some v) : ∃ w, d'.read? path = some w ∧ v.Resembles w := by
  have hwritten : StandsAt v (Path.segments path) (d.writeEach fields) :=
    standsAt_writeEach hpaths hv d
  rcases h with rfl | ⟨rfl, hsame⟩
  · exact ⟨v, hwritten.read, .refl v⟩
  · obtain ⟨w, hw, hvw⟩ := hwritten.exists_same hsame
    exact ⟨w, hw.read, Value.resembles_of_same v w hvw⟩

/-! ### Positions -/

namespace Collection

/-- An update of all documents that its filter selects has the position of each of them. -/
theorem mem_of_targets [RegexEngine] {statement : UpdateStatement} (hmulti : statement.multi = true)
    {ds : List Document} {n : Nat} {positions : List Nat}
    (h : targets statement n ds = .ok positions) {i : Nat} {d : Document} (hd : ds[i]? = some d)
    (hsatisfies : d.satisfies statement.filter = .ok true) : n + i ∈ positions := by
  induction ds generalizing n i positions with
  | nil => cases hd
  | cons first ds ih =>
    rw [targets] at h
    obtain ⟨b, hb, h⟩ := bind_eq_ok_iff.mp h
    rcases i with _ | i
    · obtain rfl := Option.some.inj hd
      obtain rfl := Except.ok.inj (hsatisfies.symm.trans hb)
      change (if statement.multi then _ else _) = _ at h
      rw [if_pos hmulti] at h
      obtain ⟨rest, -, h⟩ := bind_eq_ok_iff.mp h
      obtain rfl := Except.ok.inj h
      exact List.mem_cons_self
    · have hshift : n + (i + 1) = n + 1 + i := by omega
      rw [hshift]
      cases b
      · exact ih h hd
      · change (if statement.multi then _ else _) = _ at h
        rw [if_pos hmulti] at h
        obtain ⟨rest, hrest, h⟩ := bind_eq_ok_iff.mp h
        obtain rfl := Except.ok.inj h
        exact List.mem_cons_of_mem _ (ih hrest hd)

/-- At every target there is a document that the filter selects. -/
theorem exists_of_mem_targets [RegexEngine] {statement : UpdateStatement} {ds : List Document}
    {positions : List Nat} (h : targets statement 0 ds = .ok positions) {i : Nat}
    (hi : i ∈ positions) :
    ∃ d, ds[i]? = some d ∧ d.satisfies statement.filter = .ok true := by
  obtain ⟨j, d, hj, hd, hsatisfies⟩ := satisfies_of_targets h hi
  rw [Nat.zero_add] at hj
  exact ⟨d, hj ▸ hd, hsatisfies⟩

/-- No document is updated twice by a statement. -/
theorem nodup_of_targets [RegexEngine] {statement : UpdateStatement} {ds : List Document} {n : Nat}
    {positions : List Nat} (h : targets statement n ds = .ok positions) : positions.Nodup := by
  induction ds generalizing n positions with
  | nil =>
    obtain rfl := Except.ok.inj h
    exact List.nodup_nil
  | cons d ds ih =>
    rw [targets] at h
    obtain ⟨b, -, h⟩ := bind_eq_ok_iff.mp h
    cases b
    · exact ih h
    · change (if statement.multi then _ else _) = _ at h
      split at h
      · obtain ⟨rest, hrest, h⟩ := bind_eq_ok_iff.mp h
        obtain rfl := Except.ok.inj h
        refine List.nodup_cons.mpr ⟨fun hmem => ?_, ih hrest⟩
        obtain ⟨j, -, hj, -⟩ := satisfies_of_targets hrest hmem
        omega
      · obtain rfl := Except.ok.inj h
        exact List.nodup_singleton n

/-! ### The loop over the positions -/

variable {name : String} {fields : Document} {reply reply' : UpdateReply} {c c' : Collection}

/-- Updating one position leaves the others as they are. -/
private theorem updateAt_of_ne {update : Document} {i j : Nat} (hne : i ≠ j) (reply : UpdateReply)
    (c : Collection) :
    (updateAt name update i reply c).2.documents[j]? = c.documents[j]? := by
  unfold updateAt
  split
  · rfl
  · split
    · rfl
    · split
      · rfl
      · split
        · rfl
        · exact List.getElem?_set_ne hne

/-- Setting values at a position that holds a document sets them in this document. -/
private theorem updateAt_set {i : Nat} {d : Document}
    (h : updateAt name [("$set", .document fields)] i reply c = (.ok reply', c'))
    (hd : c.documents[i]? = some d) :
    ∃ d', c'.documents[i]? = some d' ∧ Document.SetTo fields d d' := by
  rw [updateAt, hd] at h
  dsimp only at h
  rw [Document.updatedBy_set] at h
  dsimp only at h
  split at h
  · next hsame =>
    obtain ⟨-, rfl⟩ := Prod.mk.inj h
    exact ⟨d, hd, Or.inr ⟨rfl, hsame⟩⟩
  · split at h
    · cases (Prod.mk.inj h).1
    · obtain ⟨-, rfl⟩ := Prod.mk.inj h
      have hlt : i < c.documents.length := (List.getElem?_eq_some_iff.mp hd).1
      exact ⟨d.writeEach fields, List.getElem?_set_self hlt, Or.inl rfl⟩

/-- Setting values at several positions sets them in the document of each, and nowhere else. -/
theorem updateEach_set {positions : List Nat} (hnodup : positions.Nodup)
    (h : updateEach name [("$set", .document fields)] positions reply c = (.ok reply', c')) :
    (∀ j ∉ positions, c'.documents[j]? = c.documents[j]?) ∧
      ∀ i ∈ positions, ∀ d, c.documents[i]? = some d →
        ∃ d', c'.documents[i]? = some d' ∧ Document.SetTo fields d d' := by
  induction positions generalizing reply c with
  | nil =>
    obtain ⟨-, rfl⟩ := Prod.mk.inj h
    exact ⟨fun _ _ => rfl, fun _ hi => absurd hi List.not_mem_nil⟩
  | cons i positions ih =>
    obtain ⟨hi, hrest⟩ := List.nodup_cons.mp hnodup
    rw [updateEach] at h
    split at h
    · cases (Prod.mk.inj h).1
    next reply₁ c₁ hfirst =>
    obtain ⟨hothers, hset⟩ := ih hrest h
    have hframe : ∀ j, i ≠ j → c₁.documents[j]? = c.documents[j]? := by
      intro j hne
      have hstep :
          (updateAt name [("$set", .document fields)] i reply c).2.documents[j]? =
            c.documents[j]? := updateAt_of_ne hne reply c
      rwa [hfirst] at hstep
    -- The first position is written now and left alone later, the others the other way round.
    refine ⟨fun j hj => ?_, fun j hj d hd => ?_⟩
    · have hne : j ≠ i := List.ne_of_not_mem_cons hj
      rw [hothers j (List.not_mem_of_not_mem_cons hj), hframe j hne.symm]
    · rcases List.mem_cons.mp hj with rfl | hj
      · obtain ⟨d', hd', hsetTo⟩ := updateAt_set hfirst hd
        exact ⟨d', (hothers j hi).trans hd', hsetTo⟩
      · have hne : i ≠ j := fun heq => hi (heq ▸ hj)
        exact hset j hj d ((hframe j hne).trans hd)

/-- An update of one statement runs over the positions of its targets. -/
theorem update_of_targets [RegexEngine] {statement : UpdateStatement} {positions : List Nat}
    (h : targets statement 0 c.documents = .ok positions) :
    update name [statement] c = updateEach name statement.update positions ⟨0, 0⟩ c := by
  rw [update, updateAll, h]
  dsimp only
  rcases updateEach name statement.update positions ⟨0, 0⟩ c with ⟨cause | reply, c'⟩ <;> rfl

/-- An update of one statement that succeeds has targets. -/
theorem exists_targets_of_update [RegexEngine] {statement : UpdateStatement}
    (h : update name [statement] c = (.ok reply, c')) :
    ∃ positions, targets statement 0 c.documents = .ok positions ∧
      updateEach name statement.update positions ⟨0, 0⟩ c = (.ok reply, c') := by
  rcases htargets : targets statement 0 c.documents with cause | positions
  · rw [update, updateAll, htargets] at h
    cases (Prod.mk.inj h).1
  · exact ⟨positions, rfl, update_of_targets htargets ▸ h⟩

/-- **An update of one statement** that succeeds sets its values in every document that its filter
selects. -/
theorem update_set [RegexEngine] {filter : Document}
    (h : (update name [⟨filter, [("$set", .document fields)], true⟩] c).1 = .ok reply) {i : Nat}
    {d : Document} (hd : c.documents[i]? = some d) (hsatisfies : d.satisfies filter = .ok true) :
    ∃ d', (update name [⟨filter, [("$set", .document fields)], true⟩] c).2.documents[i]? = some d' ∧
      Document.SetTo fields d d' := by
  obtain ⟨positions, htargets, heach⟩ := exists_targets_of_update (Prod.ext h rfl)
  have hmem : i ∈ positions := by
    have htarget := mem_of_targets rfl htargets hd hsatisfies
    rwa [Nat.zero_add] at htarget
  exact (updateEach_set (nodup_of_targets htargets) heach).2 i hmem d hd

end Collection

/-! ### Updates -/

/-- The keys of the document of a row are paths apart from each other, where the paths of its fields
are. -/
private theorem QueryPlan.RowDocument.pairwise_apart {paths : List String} {row : List Operand}
    {d : Document} (h : RowDocument paths row d) (hpaths : paths.Pairwise Path.Apart) :
    d.keys.Pairwise Path.Apart :=
  h.nodup.imp_of_mem fun hp hq hne => hpaths.forall (h.subset hp) (h.subset hq) hne

namespace Database

variable {db : Database} {s : Server} {cat : Catalog} {q : Query} {paths : List String}
  {operands : List Operand} {filter : Document}

/-- **What is updated is read back.** After an update of one row that succeeds, every document that
its filter selected reads at each of the fields what was given, up to the order of keys and the
signs of zeros, and whatever lay there before. -/
theorem execute_updated [RegexEngine] (hcat : s.store.catalog? db.connection.handle = some cat)
    (hupdate : q.action = .update) (hinput : q.input = [operands])
    (hpaths : QueryPlan.plainPaths q.fields = .ok paths) (hapart : paths.Pairwise Path.Apart)
    (hfilter : Filter.compileList .plain q.filters = .ok filter)
    (hending : (db.execute q s).1.ending = .ok ()) :
    ∃ cat', (db.execute q s).2.store.catalog? db.connection.handle = some cat' ∧
      ∀ (i : Nat) (d : Document), (cat.collection q.schema).documents[i]? = some d →
        d.satisfies filter = .ok true →
          ∃ d', (cat'.collection q.schema).documents[i]? = some d' ∧
            ∀ (j : Nat) (f : Field) (operand : Operand), q.fields[j]? = some f →
              operands[j]? = some operand →
                ∃ path v w, f.plainPath = .ok path ∧ operand.encode = .ok v ∧
                  d'.read? path = some w ∧ v.Resembles w := by
  obtain ⟨plan, hplan, hexecute⟩ := exists_plan_of_ending hending
  rw [Query.compile, hupdate, hinput] at hplan
  obtain ⟨filter', hfilter', hplan⟩ := bind_eq_ok_iff.mp hplan
  obtain rfl := Except.ok.inj (hfilter.symm.trans hfilter')
  obtain ⟨documents, hdocuments, hplan⟩ := bind_eq_ok_iff.mp hplan
  obtain rfl := Except.ok.inj hplan
  -- One row has one document.
  obtain ⟨fields, rfl, hrow⟩ : ∃ fields, documents = [fields] ∧
      QueryPlan.RowDocument paths operands fields := by
    cases QueryPlan.forall₂_of_inputDocuments hpaths (hapart.imp fun h => h.ne) hdocuments with
    | cons hrow hrest =>
      cases hrest
      exact ⟨_, rfl, hrow⟩
  rw [List.map_singleton] at hexecute
  rw [hexecute, run_update hcat] at hending ⊢
  refine ⟨_, (Store.catalog?_written hcat _ _).1, fun i d hd hsatisfies => ?_⟩
  rcases hreply : (cat.update ⟨q.schema, [⟨filter, [("$set", .document fields)], true⟩]⟩).1 with
    cause | reply
  · rw [hreply] at hending
    cases hending
  obtain ⟨d', hd', hset⟩ := Collection.update_set hreply hd hsatisfies
  refine ⟨d', ?_, fun j f operand hf hoperand => ?_⟩
  · rw [Catalog.update, Catalog.modify, Catalog.collection_withCollection_self]
    exact hd'
  · obtain ⟨path, v, hpath, -, hv, hvalue⟩ := hrow.exists_operand hpaths hf hoperand
    obtain ⟨w, hw, hresembles⟩ := hset.exists_read (hrow.pairwise_apart hapart) hvalue
    exact ⟨path, v, w, hpath, hv, hw, hresembles⟩

/-! ### Two notes to update -/

/-- An update of the place of every note, by a city and a code in it. -/
def movePlaces : Query where
  schema := "notes"
  action := .update
  fields := [.path [.name "place", .name "city"] "notes",
    .path [.name "place", .name "code"] "notes"]
  input := [[.bind (.string "Paris"), .bind (.int32 75)]]

/-- A store of two notes, with a text and with a list for their places. -/
def placedNotes : Server :=
  ⟨⟨⟨[("notes", ⟨[[(idKey, .int32 1), ("place", .string "Rome")],
    [(idKey, .int32 2), ("place", .array [.int32 1])]], []⟩)]⟩, [], []⟩, 0⟩

attribute [local instance] Runtime.engine

/-- Both parts of the place are read back of the first note, where a text stood before. -/
theorem execute_updated_movePlaces :
    ∃ cat d city code, ((ofConnection .sound).execute movePlaces placedNotes).2.store.catalog?
        .base = some cat ∧
      (cat.collection "notes").documents[0]? = some d ∧
      d.read? "place.city" = some city ∧ Value.Resembles (.string "Paris") city ∧
      d.read? "place.code" = some code ∧ Value.Resembles (.int32 75) code := by
  have hcat : placedNotes.store.catalog? (ofConnection .sound).connection.handle =
      some placedNotes.store.committed := rfl
  have hpaths : QueryPlan.plainPaths movePlaces.fields = .ok ["place.city", "place.code"] := rfl
  have hending : ((ofConnection .sound).execute movePlaces placedNotes).1.ending = .ok () := by
    decide +kernel
  obtain ⟨cat, hcat', hupdated⟩ := execute_updated hcat rfl rfl hpaths
    (by decide) rfl hending
  obtain ⟨d, hd, hfields⟩ := hupdated 0 [(idKey, .int32 1), ("place", .string "Rome")] rfl rfl
  obtain ⟨path, v, city, hpath, hv, hcity, hresembles⟩ := hfields 0 _ _ rfl rfl
  obtain ⟨path', v', code, hpath', hv', hcode, hresembles'⟩ := hfields 1 _ _ rfl rfl
  obtain rfl := Except.ok.inj hpath
  obtain rfl := Except.ok.inj hv
  obtain rfl := Except.ok.inj hpath'
  obtain rfl := Except.ok.inj hv'
  exact ⟨cat, d, city, code, hcat', hd, hcity, hresembles, hcode, hresembles'⟩

/-- An update of the day of every note, by the negative zero. -/
def zeroDays : Query where
  schema := "notes"
  action := .update
  fields := [.single (.name "day") "notes"]
  input := [[.bind (.double .negZero)]]

/-- A store of one note, on day zero. -/
def zeroNote : Server :=
  ⟨⟨⟨[("notes", ⟨[[(idKey, .int32 1), ("day", .double .zero)]], []⟩)]⟩, [], []⟩, 0⟩

/-- **A zero keeps its sign.** The update of the day succeeds, and the note, which its filter
selects, reads the zero that it had and not the one that was given. -/
theorem execute_zeroDays :
    Filter.compileList .plain zeroDays.filters = .ok Filter.matchAll ∧
    ((ofConnection .sound).execute zeroDays zeroNote).1.ending = .ok () ∧
    zeroDays.input.map (List.map Operand.encode) = [[.ok (.double .negZero)]] ∧
    ((((ofConnection .sound).execute zeroDays zeroNote).2.store.catalog? .base).map fun cat =>
      (cat.collection "notes").documents.map (·.read? "day")) = some [some (.double .zero)] ∧
    Value.double .zero ≠ .double .negZero :=
  ⟨rfl, by decide +kernel, rfl, by decide +kernel, by decide⟩

end Database

end DocQuery
