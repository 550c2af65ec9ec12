import DocQuery.Collection

/-!
# What updates keep

An update changes a collection at one position after another, and at each of them in one way alone:
what its update makes of the document there takes the place of this document, if it is not the same
in storage and clashes with none of the others. A property that is kept whenever this happens
(`Collection.KeptAt`) is kept by the loop over the positions and by that over the statements,
whether or not they come to their end.
-/

namespace DocQuery.Collection

/-- A property of collections is kept at a position where an update writes its document. -/
def KeptAt (name : String) (update : Document) (i : Nat) (P : Collection → Prop) : Prop :=
  ∀ (c : Collection) (d u : Document), P c → c.documents[i]? = some d →
    d.updatedBy update = .ok u → u.same d = false →
      conflict? name c.indexes (c.documents.eraseIdx i) u = none →
        P { c with documents := c.documents.set i u }

variable {name : String} {P : Collection → Prop}

/-- **One position.** Only the last branch writes; an update that fails, changes nothing or clashes
does not. -/
theorem KeptAt.updateAt {update : Document} {i : Nat} (h : KeptAt name update i P)
    (reply : UpdateReply) {c : Collection} (hc : P c) : P (updateAt name update i reply c).2 := by
  unfold Collection.updateAt
  split
  · exact hc
  · next d hd =>
    split
    · exact hc
    · next u hu =>
      split
      · exact hc
      · next hchanged =>
        split
        · exact hc
        · next hconflict => exact h c d u hc hd hu (Bool.eq_false_iff.mpr hchanged) hconflict

/-- **Several positions.** -/
theorem updateEach_keeps {update : Document} {positions : List Nat}
    (h : ∀ i ∈ positions, KeptAt name update i P) (reply : UpdateReply) {c : Collection}
    (hc : P c) : P (updateEach name update positions reply c).2 := by
  induction positions generalizing reply c with
  | nil => exact hc
  | cons i positions ih =>
    obtain ⟨hi, hrest⟩ := List.forall_mem_cons.mp h
    have hstep := hi.updateAt reply hc
    rw [updateEach]
    split
    · next heq => rwa [heq] at hstep
    · next heq =>
      rw [heq] at hstep
      exact ih hrest _ hstep

/-- **Several statements.** A property is kept if each of them keeps it at its targets, which are
found when the property still holds. -/
theorem updateAll_keeps_of_targets [RegexEngine] {statements : List UpdateStatement}
    (h : ∀ statement ∈ statements, ∀ c positions, P c →
      targets statement 0 c.documents = .ok positions →
        ∀ i ∈ positions, KeptAt name statement.update i P)
    (reply : UpdateReply) {c : Collection} (hc : P c) :
    P (updateAll name statements reply c).2 := by
  induction statements generalizing reply c with
  | nil => exact hc
  | cons statement statements ih =>
    obtain ⟨hstatement, hrest⟩ := List.forall_mem_cons.mp h
    rw [updateAll]
    split
    · exact hc
    · next positions htargets =>
      have hstep := updateEach_keeps (hstatement c positions hc htargets) reply hc
      split
      · next heq => rwa [heq] at hstep
      · next heq =>
        rw [heq] at hstep
        exact ih hrest _ hstep

/-- A property is kept by several statements that keep it at every position. -/
theorem updateAll_keeps [RegexEngine] {statements : List UpdateStatement}
    (h : ∀ statement ∈ statements, ∀ i, KeptAt name statement.update i P) (reply : UpdateReply)
    {c : Collection} (hc : P c) : P (updateAll name statements reply c).2 :=
  updateAll_keeps_of_targets (fun statement hstatement _ _ _ _ i _ => h statement hstatement i)
    reply hc

end DocQuery.Collection
