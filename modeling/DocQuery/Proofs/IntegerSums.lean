import DocQuery.Proofs.Summaries
import DocQuery.Proofs.UpdateTargets
import DocQuery.Proofs.ValueParts
import DocQuery.Runtime.Regex.Engine
import Mathlib.Algebra.BigOperators.Group.List.Basic
import Mathlib.Algebra.Order.BigOperators.Group.List
import Mathlib.Algebra.Ring.Int.Defs
import Mathlib.Data.List.Infix

/-!
# Sums of integers

A sum of integers is kept within 64 bits at every step, so a running sum that leaves them is cut off
and what was cut is lost: whether the sum is right depends on all first parts of the list and not
only on its total. As long as no running sum leaves the 64 bits, nothing is lost
(`Accumulator.integerSum_of_prefixes`). All running sums, in any order, lie between the sum of the
negative integers and that of the positive ones, and there are orders in which these two are
reached.

So an aggregate reports the exact sum of the integers at its field if the running sums fit, and it
does so in every order of the documents exactly if the positive integers and the negative ones have
sums that fit (`Database.execute_sum`).
-/

namespace DocQuery

namespace Accumulator

/-! ### Running sums -/

/-- An integer that 64 bits can hold. -/
def Fits (n : Int) : Prop := -0x8000000000000000 ≤ n ∧ n ≤ 0x7FFFFFFFFFFFFFFF

instance (n : Int) : Decidable (Fits n) := inferInstanceAs (Decidable (_ ∧ _))

private theorem saturate_of_fits {n : Int} (h : Fits n) : saturate n = n := by
  unfold Fits at h
  unfold saturate
  omega

private theorem fits_saturate (n : Int) : Fits (saturate n) := by
  unfold Fits saturate
  omega

/-- The sum of integers on top of a total, kept within 64 bits at every step. -/
def addUp (total : Int) (ns : List Int) : Int :=
  ns.foldl (fun total n => saturate (total + n)) total

theorem addUp_cons (total n : Int) (ns : List Int) :
    addUp total (n :: ns) = addUp (saturate (total + n)) ns := rfl

theorem addUp_append (total : Int) (ns ms : List Int) :
    addUp total (ns ++ ms) = addUp (addUp total ns) ms := List.foldl_append

private theorem fits_addUp {total : Int} (h : Fits total) (ns : List Int) :
    Fits (addUp total ns) := by
  induction ns generalizing total with
  | nil => exact h
  | cons n ns ih => exact ih (fits_saturate (total + n))

private theorem fits_integerSum (ns : List Int) : Fits (integerSum ns) := fits_addUp (by decide) ns

/-- Nothing is lost while no running sum leaves the 64 bits. -/
private theorem addUp_of_prefixes {total : Int} {ns : List Int}
    (h : ∀ first, first <+: ns → Fits (total + first.sum)) : addUp total ns = total + ns.sum := by
  induction ns generalizing total with
  | nil => exact (Int.add_zero total).symm
  | cons n ns ih =>
    have hstep : Fits (total + n) := by
      simpa using h [n] (List.cons_prefix_cons.mpr ⟨rfl, List.nil_prefix⟩)
    have hrest : ∀ first, first <+: ns → Fits (total + n + first.sum) := fun first hfirst => by
      rw [Int.add_assoc, ← List.sum_cons]
      exact h (n :: first) (List.cons_prefix_cons.mpr ⟨rfl, hfirst⟩)
    rw [addUp_cons, saturate_of_fits hstep, ih hrest, List.sum_cons, Int.add_assoc]

theorem integerSum_of_prefixes {ns : List Int} (h : ∀ first, first <+: ns → Fits first.sum) :
    integerSum ns = ns.sum := by
  have hsum : addUp 0 ns = 0 + ns.sum := addUp_of_prefixes fun first hfirst => by
    rw [Int.zero_add]
    exact h first hfirst
  rwa [Int.zero_add] at hsum

/-- Integers of one sign are cut off at the end or not at all. -/
private theorem addUp_of_sameSign {total : Int} (htotal : Fits total) {ns : List Int}
    (h : (∀ n ∈ ns, 0 ≤ n) ∨ ∀ n ∈ ns, n ≤ 0) : addUp total ns = saturate (total + ns.sum) := by
  induction ns generalizing total with
  | nil =>
    rw [List.sum_nil, Int.add_zero, saturate_of_fits htotal]
    rfl
  | cons n ns ih =>
    have hrest : (∀ m ∈ ns, 0 ≤ m) ∨ ∀ m ∈ ns, m ≤ 0 :=
      h.imp (fun h => (List.forall_mem_cons.mp h).2) fun h => (List.forall_mem_cons.mp h).2
    have hsigns : 0 ≤ n ∧ 0 ≤ ns.sum ∨ n ≤ 0 ∧ ns.sum ≤ 0 := by
      refine h.imp (fun h => ?_) fun h => ?_
      · obtain ⟨hn, hns⟩ := List.forall_mem_cons.mp h
        exact ⟨hn, List.sum_nonneg hns⟩
      · obtain ⟨hn, hns⟩ := List.forall_mem_cons.mp h
        have hsum := List.sum_le_card_nsmul ns 0 hns
        exact ⟨hn, by simpa using hsum⟩
    rw [addUp_cons, ih (fits_saturate _) hrest, List.sum_cons]
    unfold Fits at htotal
    unfold saturate
    omega

/-! ### Gains and losses -/

/-- The sum of the positive integers in a list. -/
def gains (ns : List Int) : Int := (ns.filter (0 < ·)).sum

/-- The sum of the negative integers in a list. -/
def losses (ns : List Int) : Int := (ns.filter (· < 0)).sum

theorem gains_cons (n : Int) (ns : List Int) : gains (n :: ns) = max n 0 + gains ns := by
  unfold gains
  by_cases hn : 0 < n
  · rw [List.filter_cons_of_pos (by simpa using hn), List.sum_cons, Int.max_eq_left hn.le]
  · rw [List.filter_cons_of_neg (by simpa using hn), Int.max_eq_right (not_lt.mp hn), Int.zero_add]

theorem losses_cons (n : Int) (ns : List Int) : losses (n :: ns) = min n 0 + losses ns := by
  unfold losses
  by_cases hn : n < 0
  · rw [List.filter_cons_of_pos (by simpa using hn), List.sum_cons, Int.min_eq_left hn.le]
  · rw [List.filter_cons_of_neg (by simpa using hn), Int.min_eq_right (not_lt.mp hn), Int.zero_add]

private theorem sum_eq_gains_add_losses (ns : List Int) : ns.sum = gains ns + losses ns := by
  induction ns with
  | nil => rfl
  | cons n ns ih =>
    rw [List.sum_cons, gains_cons, losses_cons, ih]
    omega

private theorem gains_perm {ns ms : List Int} (h : ns.Perm ms) : gains ns = gains ms :=
  (h.filter _).sum_eq

private theorem losses_perm {ns ms : List Int} (h : ns.Perm ms) : losses ns = losses ms :=
  (h.filter _).sum_eq

/-- Running sums lie between the losses and the gains. -/
private theorem losses_le_sum_le_gains {first ns : List Int} (h : first <+: ns) :
    losses ns ≤ first.sum ∧ first.sum ≤ gains ns := by
  induction ns generalizing first with
  | nil =>
    obtain rfl := List.prefix_nil.mp h
    decide
  | cons n ns ih =>
    have hnil := ih List.nil_prefix
    rw [List.sum_nil] at hnil
    rw [gains_cons, losses_cons]
    rcases first with _ | ⟨m, first⟩
    · rw [List.sum_nil]
      omega
    · obtain ⟨rfl, hfirst⟩ := List.cons_prefix_cons.mp h
      have hrest := ih hfirst
      rw [List.sum_cons]
      omega

/-- A sum whose gains and losses fit is right. -/
private theorem integerSum_of_fits {ns : List Int} (hgains : Fits (gains ns))
    (hlosses : Fits (losses ns)) :
    integerSum ns = ns.sum :=
  integerSum_of_prefixes fun _ hfirst =>
    ⟨hlosses.1.trans (losses_le_sum_le_gains hfirst).1,
      (losses_le_sum_le_gains hfirst).2.trans hgains.2⟩

/-- Integers of one sign ahead of those of the other are cut off at the change and at the end. -/
private theorem integerSum_of_signs {ns ms : List Int}
    (h : (∀ n ∈ ns, 0 ≤ n) ∧ (∀ m ∈ ms, m ≤ 0) ∨ (∀ n ∈ ns, n ≤ 0) ∧ ∀ m ∈ ms, 0 ≤ m) :
    integerSum (ns ++ ms) = saturate (saturate ns.sum + ms.sum) := by
  have hns : addUp 0 ns = saturate ns.sum := by
    rw [addUp_of_sameSign (by decide) (h.imp And.left And.left), Int.zero_add]
  have hms := addUp_of_sameSign (fits_saturate ns.sum) (h.symm.imp And.right And.right)
  exact (addUp_append 0 ns ms).trans (hns ▸ hms)

/-- A sum that is right with the positive integers ahead, and with the negative ones ahead, has
gains and losses that fit. -/
private theorem fits_of_integerSum {ns : List Int}
    (hpositive : integerSum (ns.filter (0 < ·) ++ ns.filter fun n => !decide (0 < n)) = ns.sum)
    (hnegative : integerSum (ns.filter (· < 0) ++ ns.filter fun n => !decide (n < 0)) = ns.sum) :
    Fits (gains ns) ∧ Fits (losses ns) := by
  have hsum := sum_eq_gains_add_losses ns
  have hnil := losses_le_sum_le_gains (List.nil_prefix (l := ns))
  have hothers : ∀ p : Int → Bool, (ns.filter p).sum + (ns.filter fun n => !p n).sum = ns.sum :=
    fun p => by rw [← List.sum_append, (List.filter_append_perm p ns).sum_eq]
  have hafter := hothers (0 < ·)
  have hafter' := hothers (· < 0)
  rw [integerSum_of_signs (Or.inl (by simp +contextual [le_of_lt]))] at hpositive
  rw [integerSum_of_signs (Or.inr (by simp +contextual [le_of_lt]))] at hnegative
  change gains ns + _ = _ at hafter
  change losses ns + _ = _ at hafter'
  change saturate (saturate (gains ns) + _) = _ at hpositive
  change saturate (saturate (losses ns) + _) = _ at hnegative
  rw [List.sum_nil] at hnil
  unfold saturate at hpositive hnegative
  unfold Fits
  omega

end Accumulator

/-! ### Integers of documents -/

/-- The integer of either width that a document holds at a path. -/
def Document.integerAt? (path : String) (d : Document) : Option Int :=
  match d.read? path with
  | some (.int32 n) => some n.toInt
  | some (.int64 n) => some n.toInt
  | _ => none

/-- The integers that documents hold at a path, in order. -/
def Document.integersAt (path : String) (ds : List Document) : List Int :=
  ds.filterMap (integerAt? path)

/-- A value is an integer, of 32 bits if these can hold it and of 64 bits otherwise. -/
def Value.IsInteger (n : Int) : Value → Prop
  | .int32 m => m.toInt = n
  | .int64 m => m.toInt = n ∧ ¬(-0x80000000 ≤ n ∧ n ≤ 0x7FFFFFFF)
  | _ => False

private theorem Value.IsInteger.unique {m n : Int} {v : Value} (hm : v.IsInteger m)
    (hn : v.IsInteger n) :
    m = n := by
  unfold IsInteger at hm hn
  split at hm
  · exact hm.symm.trans hn
  · exact hm.1.symm.trans hn.1
  · exact hm.elim

namespace Accumulator

/-- An integer that fits is written in the narrowest width. -/
private theorem isInteger_narrowest {n : Int} (h : Fits n) : (narrowest n).IsInteger n := by
  unfold Fits at h
  unfold narrowest
  split
  · exact Int32.toInt_ofInt_of_le (by omega) (by omega)
  · exact ⟨Int64.toInt_ofInt_of_le (by omega) (by omega), by omega⟩

/-- The integers among the values at a path are those that the documents hold there. -/
private theorem integers_valueAt (path : String) (ds : List Document) :
    integers (ds.map fun d => Stage.valueAt d path) = Document.integersAt path ds := by
  rw [integers, List.filterMap_map]
  refine List.filterMap_congr fun d _ => ?_
  rw [Function.comp_apply, Stage.valueAt, Document.integerAt?]
  rcases d.read? path with _ | a | items | inner
  · rfl
  · cases a <;> rfl
  · rfl
  · rfl

/-- Values of which none is a double have a sum in integers. -/
private theorem sumOf_valueAt {path : String} {ds : List Document}
    (hdouble : ∀ d ∈ ds, (d.read? path).any Value.isDouble = false) :
    sumOf (ds.map fun d => Stage.valueAt d path) =
      narrowest (integerSum (Document.integersAt path ds)) := by
  have hdoubles : doubles (ds.map fun d => Stage.valueAt d path) = [] := by
    rw [doubles, List.filterMap_map, List.filterMap_eq_nil_iff]
    intro d hd
    have hd := hdouble d hd
    rw [Function.comp_apply, Stage.valueAt]
    rcases hvalue : d.read? path with _ | a | items | inner
    · rfl
    · cases a with
      | double x =>
        rw [hvalue] at hd
        cases hd
      | _ => rfl
    · rfl
    · rfl
  rw [sumOf, hdoubles, integers_valueAt]

end Accumulator

namespace Document

/-- Documents that are kept for their integer at a path hold the integers they are kept for. -/
private theorem integersAt_filter {path : String} {keep : Document → Bool} {p : Int → Bool}
    (h : ∀ d n, integerAt? path d = some n → keep d = p n) (ds : List Document) :
    integersAt path (ds.filter keep) = (integersAt path ds).filter p := by
  rw [integersAt, List.filterMap_filter, integersAt, List.filter_filterMap]
  refine List.filterMap_congr fun d _ => ?_
  rcases hn : integerAt? path d with _ | n
  · rw [ite_self]
    rfl
  · rw [h d n hn]
    rfl

/-- Documents with those ahead that hold an integer of a kind at a path. -/
def integersAhead (path : String) (p : Int → Bool) (ds : List Document) : List Document :=
  (ds.filter fun d => (d.integerAt? path).any p) ++ ds.filter fun d => !(d.integerAt? path).any p

private theorem integersAhead_perm (path : String) (p : Int → Bool) (ds : List Document) :
    (integersAhead path p ds).Perm ds := List.filter_append_perm _ ds

private theorem integersAt_integersAhead (path : String) (p : Int → Bool) (ds : List Document) :
    integersAt path (integersAhead path p ds) =
      (integersAt path ds).filter p ++ (integersAt path ds).filter fun n => !p n := by
  have hahead : integersAt path (ds.filter fun d => (d.integerAt? path).any p) =
      (integersAt path ds).filter p := integersAt_filter (fun d n hn => by rw [hn]; rfl) ds
  have hbehind : integersAt path (ds.filter fun d => !(d.integerAt? path).any p) =
      (integersAt path ds).filter fun n => !p n :=
    integersAt_filter (fun d n hn => by rw [hn]; rfl) ds
  rw [← hahead, ← hbehind]
  exact List.filterMap_append

/-- Reordering commutes with selecting. -/
private theorem filter_integersAhead (path : String) (p : Int → Bool) (r : Document → Bool)
    (ds : List Document) :
    (integersAhead path p ds).filter r = integersAhead path p (ds.filter r) := by
  rw [integersAhead, List.filter_append, List.filter_comm, List.filter_comm r]
  rfl

end Document

namespace Database

/-- An aggregate reports an integer. -/
def ReportsInteger [RegexEngine] (db : Database) (q : Query) (s : Server) (n : Int) : Prop :=
  ∃ v : Value, v.IsInteger n ∧ (db.execute q s).1 = .single (.aggregate v)

variable {db : Database} {s : Server} {cat : Catalog} {q : Query} {f : Field} {path : String}
  {filter : Document} {found : List Document}

private theorem ReportsInteger.unique [RegexEngine] {m n : Int} (hm : db.ReportsInteger q s m)
    (hn : db.ReportsInteger q s n) : m = n := by
  obtain ⟨v, hv, hreport⟩ := hm
  obtain ⟨w, hw, hreport'⟩ := hn
  have hrows := congrArg Outcome.rows (hreport.symm.trans hreport')
  obtain rfl : v = w := Row.aggregate.inj (List.cons.inj hrows).1
  exact hv.unique hw

/-- A handle with a catalog could find other documents in a collection. -/
private theorem exists_server_documents {h : Handle} (hcat : s.store.catalog? h = some cat)
    (name : String) (ds : List Document) :
    ∃ (s' : Server) (cat' : Catalog), s'.store.catalog? h = some cat' ∧
      (cat'.collection name).documents = ds := by
  refine ⟨{ s with store := s.store.withCatalog h (cat.withCollection name ⟨ds, []⟩) }, _,
    Store.catalog?_withCatalog_self hcat _, ?_⟩
  rw [Catalog.collection_withCollection_self]

section Sum

variable [RegexEngine] (hsound : db.connection.faults = none)
  (hcat : s.store.catalog? db.connection.handle = some cat)
  (haction : q.action = .aggregate (.field f .sum)) (hpath : f.plainPath = .ok path)
  (hplain : isOperator path = false) (hfilter : Filter.compileList .plain q.filters = .ok filter)
  (hfound : Document.selectFrom filter (cat.collection q.schema).documents = .ok found)
  (hsome : found ≠ []) (hdouble : ∀ d ∈ found, (d.read? path).any Value.isDouble = false)

include hsound hcat haction hpath hplain hfilter hfound hsome hdouble

/-- A sum of values without doubles reports what the integers come to, added up in order. -/
private theorem reportsInteger_integerSum :
    db.ReportsInteger q s (Accumulator.integerSum (Document.integersAt path found)) := by
  refine ⟨_, Accumulator.isInteger_narrowest (Accumulator.fits_integerSum _), ?_⟩
  rw [execute_reduced hsound hcat haction rfl hpath hplain hfilter, hfound,
    ← Accumulator.sumOf_valueAt hdouble]
  rcases found with _ | ⟨d, ds⟩
  · exact absurd rfl hsome
  · rfl

omit hcat in
/-- In another order of the documents their integers are added up in that order. -/
private theorem reportsInteger_reordered {s' : Server} {cat' : Catalog}
    (hcat' : s'.store.catalog? db.connection.handle = some cat')
    (hperm : (cat'.collection q.schema).documents.Perm (cat.collection q.schema).documents) :
    db.ReportsInteger q s' (Accumulator.integerSum (Document.integersAt path
      ((cat'.collection q.schema).documents.filter (·.isSelectedBy filter)))) := by
  obtain ⟨hdecided, rfl⟩ := Document.selectFrom_eq_ok_iff.mp hfound
  have hfound' := Document.selectFrom_eq_ok_iff.mpr
    ⟨fun d hd => hdecided d (hperm.subset hd), rfl⟩
  have hselected := hperm.filter (·.isSelectedBy filter)
  exact reportsInteger_integerSum hsound hcat' haction hpath hplain hfilter hfound'
    (fun hnil => hsome (List.perm_nil.mp (hnil ▸ hselected.symm)))
    fun d hd => hdouble d (hselected.subset hd)

/-- **Sums of integers.** An aggregate reports the exact sum of the integers at its field, if none
of the running sums in the order of the documents leaves the 64 bits. It does so in every order of
the documents if and only if the positive integers and the negative ones have sums of 64 bits. -/
theorem execute_sum :
    ((∀ first, first <+: Document.integersAt path found → Accumulator.Fits first.sum) →
      db.ReportsInteger q s (Document.integersAt path found).sum) ∧
    ((Accumulator.Fits (Accumulator.gains (Document.integersAt path found)) ∧
        Accumulator.Fits (Accumulator.losses (Document.integersAt path found))) ↔
      ∀ s' cat', s'.store.catalog? db.connection.handle = some cat' →
        (cat'.collection q.schema).documents.Perm (cat.collection q.schema).documents →
        db.ReportsInteger q s' (Document.integersAt path found).sum) := by
  obtain ⟨-, hselected⟩ := Document.selectFrom_eq_ok_iff.mp hfound
  refine ⟨fun hprefixes => ?_, fun hfits s' cat' hcat' hperm => ?_, fun hall => ?_⟩
  · rw [← Accumulator.integerSum_of_prefixes hprefixes]
    exact reportsInteger_integerSum hsound hcat haction hpath hplain hfilter hfound hsome hdouble
  · have hreports := reportsInteger_reordered hsound haction hpath hplain hfilter hfound hsome
      hdouble hcat' hperm
    have hintegers : (Document.integersAt path
        ((cat'.collection q.schema).documents.filter (·.isSelectedBy filter))).Perm
          (Document.integersAt path found) := by
      rw [hselected]
      exact (hperm.filter (·.isSelectedBy filter)).filterMap (Document.integerAt? path)
    rw [Accumulator.integerSum_of_fits (Accumulator.gains_perm hintegers ▸ hfits.1)
      (Accumulator.losses_perm hintegers ▸ hfits.2), hintegers.sum_eq] at hreports
    exact hreports
  · -- The orders that decide have the positive integers ahead, and the negative ones.
    have hahead : ∀ p : Int → Bool, Accumulator.integerSum
        ((Document.integersAt path found).filter p ++
          (Document.integersAt path found).filter fun n => !p n) =
        (Document.integersAt path found).sum := fun p => by
      obtain ⟨s', cat', hcat', hdocuments⟩ := exists_server_documents hcat q.schema
        (Document.integersAhead path p (cat.collection q.schema).documents)
      have hperm : (cat'.collection q.schema).documents.Perm (cat.collection q.schema).documents :=
        hdocuments ▸ Document.integersAhead_perm path p _
      have hreports := reportsInteger_reordered hsound haction hpath hplain hfilter hfound
        hsome hdouble hcat' hperm
      rw [hdocuments, Document.filter_integersAhead, ← hselected,
        Document.integersAt_integersAhead] at hreports
      exact hreports.unique (hall s' cat' hcat' hperm)
    exact Accumulator.fits_of_integerSum (hahead (0 < ·)) (hahead (· < 0))

end Sum

end Database

/-! ### Sums at the end of the 64 bits -/

/-- Days that leave the greatest integer of 64 bits and come back to it. -/
def farDays : List Value := [.int64 0x7FFFFFFFFFFFFFFF, .int32 (-1), .string "x", .int32 1]

attribute [local instance] Runtime.engine

/-- The sum of these days is reported, but not in every order of them. -/
theorem Database.execute_sum_farDays :
    (ofConnection .sound).ReportsInteger (.aggregate "notes" dayOfNote .sum) (notesOfDays farDays)
        0x7FFFFFFFFFFFFFFF ∧
      ¬∀ s' cat', Store.catalog? .base s'.store = some cat' →
        (cat'.collection "notes").documents.Perm (farDays.map fun day => [("day", day)]) →
        (ofConnection .sound).ReportsInteger (.aggregate "notes" dayOfNote .sum) s'
          0x7FFFFFFFFFFFFFFF := by
  have hsound : (ofConnection .sound).connection.faults = none := rfl
  have hpath : dayOfNote.plainPath = .ok "day" := rfl
  have hfound : Document.selectFrom []
      ((notesOfDays farDays).store.committed.collection "notes").documents =
        .ok (farDays.map fun day => [("day", day)]) := rfl
  have hsum := execute_sum (s := notesOfDays farDays) (q := .aggregate "notes" dayOfNote .sum)
    hsound rfl rfl hpath (by decide) rfl hfound (List.cons_ne_nil _ _) (by decide)
  have hdays : Document.integersAt "day" (farDays.map fun day => [("day", day)]) =
      [0x7FFFFFFFFFFFFFFF, -1, 1] := by decide
  have hfits : ∀ first ∈ [0x7FFFFFFFFFFFFFFF, -1, 1].inits, Accumulator.Fits first.sum := by decide
  have hgains : ¬Accumulator.Fits (Accumulator.gains [0x7FFFFFFFFFFFFFFF, -1, 1]) := by decide
  rw [hdays] at hsum
  exact ⟨hsum.1 fun first hfirst => hfits first ((List.mem_inits _ _).mpr hfirst),
    fun hall => hgains (hsum.2.mpr hall).1⟩

/-- **A sum can be wrong although it fits.** The greatest integer of 64 bits, 1 and -1 have a sum
that fits, which is not reported; and the value at a path with a dollar sign is not the one that is
added up. -/
theorem Database.execute_sum_ne :
    (∃ days : List Value,
      Document.integersAt "day" (days.map fun day => [("day", day)]) = [0x7FFFFFFFFFFFFFFF, 1, -1] ∧
      Accumulator.Fits [0x7FFFFFFFFFFFFFFF, 1, -1].sum ∧
      ((ofConnection .sound).execute (.aggregate "notes" dayOfNote .sum) (notesOfDays days)).1 =
        .single (.aggregate (.int64 0x7FFFFFFFFFFFFFFE))) ∧
    ∃ s : Server,
      ((s.store.committed.collection "notes").documents.map fun d => d.read? "$ROOT") =
        [some (.int32 5)] ∧
      ((ofConnection .sound).execute
        (.aggregate "notes" (.single (.name "$ROOT") "notes") .sum) s).1 =
          .single (.aggregate (.int32 0)) := by
  refine ⟨⟨[.int64 0x7FFFFFFFFFFFFFFF, .int32 1, .int32 (-1)], by decide, by decide, rfl⟩,
    ⟨⟨⟨[("notes", ⟨[[("$ROOT", .int32 5)]], []⟩)]⟩, [], []⟩, 0⟩, by decide, rfl⟩

end DocQuery
