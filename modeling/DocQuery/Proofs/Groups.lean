import DocQuery.Proofs.EqualValues
import DocQuery.Runtime.Regex.Engine
import DocQuery.Stage
import Mathlib.Algebra.GroupWithZero.Nat
import Mathlib.Algebra.Ring.Int.Defs

/-!
# Groups partition documents

Each document goes to the first group of an equal key, or makes a new one behind the others
(`Group.add`). The place of that group is a function of the groups and of the key, `Group.place`,
and what a document does to the groups is said by it: it changes the members at this place and
nothing else (`Group.membersAt_add`), and keeps the places that there are (`Group.place_add`).

So the places are settled once a document is added, and at the end the members of a group are the
documents of its place, in their order. Where the keys hold no doubles, equality is an equivalence,
and documents share a place exactly when their keys are equal. The main theorem is
`Stage.partitions_run_group`.
-/

namespace DocQuery

namespace Group

/-! ### One document -/

/-- The place of the first group whose key is equal to a key, or the one behind all groups. -/
def place (groups : List Group) (key : Value) : Nat := groups.findIdx (·.key.equal key)

/-- The members of the group at a place, none behind all groups. -/
def membersAt (groups : List Group) (n : Nat) : List Document := (groups[n]?.map members).getD []

variable {groups : List Group} {key : Value} {d : Document}

private theorem place_cons_pos {g : Group} (hg : g.key.equal key = true) (groups : List Group) :
    place (g :: groups) key = 0 := by
  rw [place, List.findIdx_cons, hg]
  rfl

private theorem place_cons_neg {g : Group} (hg : ¬g.key.equal key = true) (groups : List Group) :
    place (g :: groups) key = place groups key + 1 := by
  rw [place, List.findIdx_cons, Bool.eq_false_iff.mpr hg]
  rfl

private theorem add_cons_pos {g : Group} (hg : g.key.equal key = true) (d : Document)
    (groups : List Group) :
    add key d (g :: groups) = { g with members := g.members ++ [d] } :: groups := if_pos hg

private theorem add_cons_neg {g : Group} (hg : ¬g.key.equal key = true) (d : Document)
    (groups : List Group) : add key d (g :: groups) = g :: add key d groups := if_neg hg

/-- The places of keys that have a group are kept. -/
theorem place_add {key' : Value} (h : place groups key' < groups.length) (key : Value)
    (d : Document) :
    place (add key d groups) key' = place groups key' ∧
      place groups key' < (add key d groups).length := by
  induction groups with
  | nil => cases h
  | cons g groups ih =>
    by_cases hg : g.key.equal key = true
    · rw [add_cons_pos hg]
      exact ⟨rfl, h⟩
    rw [add_cons_neg hg]
    by_cases hg' : g.key.equal key' = true
    · rw [place_cons_pos hg', place_cons_pos hg']
      exact ⟨rfl, Nat.succ_pos _⟩
    · rw [place_cons_neg hg'] at h
      obtain ⟨hplace, hlt⟩ := ih (Nat.lt_of_succ_lt_succ h)
      rw [place_cons_neg hg', place_cons_neg hg', hplace]
      exact ⟨rfl, Nat.succ_lt_succ hlt⟩

/-- A key that is equal to itself has a group once a document is added under it, and its place is
the one that it had. -/
theorem place_add_self (hself : key.equal key = true) (d : Document) (groups : List Group) :
    place (add key d groups) key = place groups key ∧
      place groups key < (add key d groups).length := by
  induction groups with
  | nil => exact ⟨place_cons_pos hself [], Nat.succ_pos _⟩
  | cons g groups ih =>
    by_cases hg : g.key.equal key = true
    · rw [add_cons_pos hg, place_cons_pos hg]
      exact ⟨place_cons_pos hg groups, Nat.succ_pos _⟩
    · rw [add_cons_neg hg, place_cons_neg hg, place_cons_neg hg, ih.1]
      exact ⟨rfl, Nat.succ_lt_succ ih.2⟩

/-- Adding a document changes the members at the place of its key. -/
theorem membersAt_add (key : Value) (d : Document) (groups : List Group) (n : Nat) :
    membersAt (add key d groups) n =
      if n = place groups key then membersAt groups n ++ [d] else membersAt groups n := by
  induction groups generalizing n with
  | nil => cases n <;> rfl
  | cons g groups ih =>
    by_cases hg : g.key.equal key = true
    · rw [add_cons_pos hg, place_cons_pos hg]
      cases n <;> rfl
    · rw [add_cons_neg hg, place_cons_neg hg]
      cases n with
      | zero => rfl
      | succ n =>
        simp only [Nat.add_right_cancel_iff]
        exact ih n

/-- Each added document is a member of one group. -/
private theorem sum_length_add (key : Value) (d : Document) (groups : List Group) :
    ((add key d groups).map fun g => g.members.length).sum =
      (groups.map fun g => g.members.length).sum + 1 := by
  induction groups with
  | nil => rfl
  | cons g groups ih =>
    by_cases hg : g.key.equal key = true
    · rw [add_cons_pos hg, List.map_cons, List.sum_cons, List.map_cons, List.sum_cons,
        List.length_append, List.length_singleton, Nat.add_right_comm]
    · rw [add_cons_neg hg, List.map_cons, List.sum_cons, ih, List.map_cons, List.sum_cons,
        Nat.add_assoc]

/-- Adding a document appends its key to those of the groups, unless one of them is equal. -/
private theorem map_key_add (key : Value) (d : Document) (groups : List Group) :
    (add key d groups).map Group.key =
      if groups.any (·.key.equal key) then groups.map Group.key
      else groups.map Group.key ++ [key] := by
  induction groups with
  | nil => rfl
  | cons g groups ih =>
    by_cases hg : g.key.equal key = true
    · rw [add_cons_pos hg, List.any_cons, hg, Bool.true_or, if_pos rfl]
      rfl
    · rw [add_cons_neg hg, List.any_cons, Bool.eq_false_iff.mpr hg, Bool.false_or, List.map_cons,
        ih]
      split <;> rfl

/-- No two keys of groups are equal, and this stays so. -/
private theorem distinct_add (h : groups.Pairwise fun g g' => g.key.equal g'.key = false)
    (key : Value) (d : Document) :
    (add key d groups).Pairwise fun g g' => g.key.equal g'.key = false := by
  rw [← List.pairwise_map (f := Group.key) (R := fun k k' => k.equal k' = false)] at h ⊢
  rw [map_key_add]
  split
  · exact h
  · next hnone =>
    refine List.pairwise_append.mpr ⟨h, List.pairwise_singleton _ _, ?_⟩
    intro k hk k' hk'
    obtain rfl := List.mem_singleton.mp hk'
    obtain ⟨g, hg, rfl⟩ := List.mem_map.mp hk
    rw [Bool.not_eq_true, List.any_eq_false] at hnone
    exact Bool.eq_false_iff.mpr (hnone g hg)

/-! ### All documents -/

/-- Add documents under their keys, one after the other. -/
def addAll (groups : List Group) (keyed : List (Value × Document)) : List Group :=
  keyed.foldl (fun groups e => add e.1 e.2 groups) groups

/-- Groups are collected by computing the keys of the documents and adding them all. -/
theorem collect_eq_ok_iff {expression : Value} {ds : List Document} {formed : List Group} :
    collect expression groups ds = .ok formed ↔
      ∃ keys, ds.mapM (fun d => expression.evaluate d) = .ok keys ∧
        formed = addAll groups (keys.zip ds) := by
  induction ds generalizing groups with
  | nil =>
    refine ⟨fun h => ⟨[], rfl, (Except.ok.inj h).symm⟩, ?_⟩
    rintro ⟨keys, hkeys, rfl⟩
    obtain rfl := Except.ok.inj hkeys
    rfl
  | cons d ds ih =>
    rw [collect, bind_eq_ok_iff]
    constructor
    · rintro ⟨key, hkey, h⟩
      obtain ⟨keys, hkeys, rfl⟩ := ih.mp h
      exact ⟨key :: keys, mapM_eq_ok_iff.mpr (by rw [List.map_cons, hkey, mapM_eq_ok_iff.mp hkeys,
        List.map_cons]), rfl⟩
    · rintro ⟨keys, hkeys, rfl⟩
      rw [mapM_eq_ok_iff, List.map_cons] at hkeys
      rcases keys with _ | ⟨key, keys⟩
      · cases hkeys
      · obtain ⟨hkey, hkeys⟩ := List.cons.inj hkeys
        exact ⟨key, hkey, ih.mpr ⟨keys, mapM_eq_ok_iff.mpr hkeys, rfl⟩⟩

variable {keyed : List (Value × Document)}

/-- Places are kept to the end. -/
private theorem place_addAll (h : place groups key < groups.length)
    (keyed : List (Value × Document)) :
    place (addAll groups keyed) key = place groups key ∧
      place groups key < (addAll groups keyed).length := by
  induction keyed generalizing groups with
  | nil => exact ⟨rfl, h⟩
  | cons e keyed ih =>
    obtain ⟨hplace, hlt⟩ := place_add h e.1 e.2
    rw [← hplace] at hlt ⊢
    exact ih hlt

/-- In the end each key has a group. -/
private theorem place_lt_of_addAll (hself : ∀ e ∈ keyed, e.1.equal e.1 = true) :
    ∀ e ∈ keyed, place (addAll groups keyed) e.1 < (addAll groups keyed).length := by
  induction keyed generalizing groups with
  | nil => exact fun e => nofun
  | cons first keyed ih =>
    obtain ⟨hfirst, hself⟩ := List.forall_mem_cons.mp hself
    refine List.forall_mem_cons.mpr ⟨?_, ih hself⟩
    obtain ⟨hplace, hlt⟩ := place_add_self hfirst first.2 groups
    rw [← hplace] at hlt
    obtain ⟨hplace', hlt'⟩ := place_addAll hlt keyed
    exact hplace'.symm ▸ hlt'

/-- **The members at a place** are, behind those that were there, the documents whose keys have this
place, in their order. -/
theorem membersAt_addAll (hself : ∀ e ∈ keyed, e.1.equal e.1 = true) (n : Nat) :
    membersAt (addAll groups keyed) n =
      membersAt groups n ++
        (keyed.filter fun e => place (addAll groups keyed) e.1 = n).map (·.2) := by
  induction keyed generalizing groups with
  | nil => exact (List.append_nil _).symm
  | cons e keyed ih =>
    obtain ⟨hfirst, hself⟩ := List.forall_mem_cons.mp hself
    obtain ⟨hplace, hlt⟩ := place_add_self hfirst e.2 groups
    rw [← hplace] at hlt
    have hkept : place (addAll groups (e :: keyed)) e.1 = place groups e.1 :=
      (place_addAll hlt keyed).1.trans hplace
    have hrest : membersAt (addAll groups (e :: keyed)) n = membersAt (add e.1 e.2 groups) n ++
        (keyed.filter fun e' => place (addAll groups (e :: keyed)) e'.1 = n).map (·.2) := ih hself
    rw [hrest, membersAt_add, List.filter_cons, hkept]
    by_cases hn : place groups e.1 = n
    · rw [if_pos hn.symm, decide_eq_true hn, if_pos rfl, List.map_cons, List.append_assoc]
      rfl
    · rw [if_neg (Ne.symm hn), decide_eq_false hn, if_neg Bool.false_ne_true]

private theorem sum_length_addAll (groups : List Group) (keyed : List (Value × Document)) :
    ((addAll groups keyed).map fun g => g.members.length).sum =
      (groups.map fun g => g.members.length).sum + keyed.length := by
  induction keyed generalizing groups with
  | nil => rfl
  | cons e keyed ih =>
    have hrest : ((addAll groups (e :: keyed)).map fun g => g.members.length).sum =
        ((add e.1 e.2 groups).map fun g => g.members.length).sum + keyed.length := ih _
    rw [hrest, sum_length_add, List.length_cons, Nat.add_assoc, Nat.add_comm 1]

/-- The numbers of members add up without overflow if all members can be counted. -/
private theorem sum_toInt_length (h : (groups.map fun g => g.members.length).sum < 2 ^ 63) :
    ((groups.map fun g => Int64.ofNat g.members.length).map Int64.toInt).sum =
      (groups.map fun g => g.members.length).sum := by
  induction groups with
  | nil => rfl
  | cons g groups ih =>
    rw [List.map_cons, List.sum_cons] at h
    have hlt : g.members.length < 2 ^ 63 := Nat.lt_of_le_of_lt (Nat.le_add_right _ _) h
    have hrest := ih (Nat.lt_of_le_of_lt (Nat.le_add_left _ _) h)
    rw [List.map_cons, List.map_cons, List.sum_cons, hrest, Int64.toInt_ofNat_of_lt hlt,
      List.map_cons, List.sum_cons, Int.natCast_add]

private theorem distinct_addAll (h : groups.Pairwise fun g g' => g.key.equal g'.key = false)
    (keyed : List (Value × Document)) :
    (addAll groups keyed).Pairwise fun g g' => g.key.equal g'.key = false := by
  induction keyed generalizing groups with
  | nil => exact h
  | cons e keyed ih => exact ih (distinct_add h e.1 e.2)

/-- What holds of the keys of groups and of those under which documents are added holds of the keys
of all groups. -/
private theorem forall_key_addAll {p : Value → Prop} (hgroups : ∀ g ∈ groups, p g.key)
    (hkeyed : ∀ e ∈ keyed, p e.1) : ∀ g ∈ addAll groups keyed, p g.key := by
  induction keyed generalizing groups with
  | nil => exact hgroups
  | cons e keyed ih =>
    obtain ⟨he, hkeyed⟩ := List.forall_mem_cons.mp hkeyed
    refine ih (fun g hg => ?_) hkeyed
    have hmem := List.mem_map_of_mem (f := Group.key) hg
    rw [map_key_add] at hmem
    have hmem : g.key ∈ groups.map Group.key ∨ g.key = e.1 := by
      split at hmem
      · exact Or.inl hmem
      · exact (List.mem_append.mp hmem).imp id List.mem_singleton.mp
    rcases hmem with hmem | heq
    · obtain ⟨g', hg', hkey⟩ := List.mem_map.mp hmem
      exact hkey ▸ hgroups g' hg'
    · exact heq.symm ▸ he

/-- The keys of the groups are those that were there, and of the others each first of its equals. -/
private theorem map_key_addAll (groups : List Group) (keyed : List (Value × Document)) :
    (addAll groups keyed).map Group.key =
      List.eraseDupsBy.loop Value.equal (keyed.map (·.1)) (groups.map Group.key).reverse := by
  induction keyed generalizing groups with
  | nil => exact (List.reverse_reverse _).symm
  | cons e keyed ih =>
    have hany : (groups.map Group.key).reverse.any (Value.equal e.1) =
        groups.any (·.key.equal e.1) := by
      rw [List.any_reverse, List.any_map]
      exact congrArg groups.any (funext fun g => Value.equal_comm e.1 g.key)
    have hrest : (addAll groups (e :: keyed)).map Group.key =
        List.eraseDupsBy.loop Value.equal (keyed.map (·.1))
          ((add e.1 e.2 groups).map Group.key).reverse := ih _
    rw [hrest, map_key_add, List.map_cons, List.eraseDupsBy.loop, hany]
    rcases groups.any (·.key.equal e.1) with _ | _
    · rw [if_neg Bool.false_ne_true, List.reverse_append]
      rfl
    · rfl

/-! ### Partitions -/

/-- Groups of documents by their keys: every document has a place among the groups, and the members
of the group there are the documents of that place, in their order; documents share a place exactly
when their keys are equal; the keys of the groups are all different, and stand in the order in which
each is first met. -/
structure Partitions (keys : List Value) (ds : List Document) (groups : List Group) : Prop where
  place_lt : ∀ key ∈ keys, place groups key < groups.length
  members_eq : ∀ n g, groups[n]? = some g →
    g.members = ((keys.zip ds).filter fun e => place groups e.1 = n).map (·.2)
  place_eq_iff : ∀ key ∈ keys, ∀ key' ∈ keys,
    place groups key = place groups key' ↔ key.equal key' = true
  distinct : groups.Pairwise fun g g' => g.key.equal g'.key = false
  keys_eq : groups.map Group.key = keys.eraseDupsBy Value.equal

/-- The key of a group is equal to those that have its place. -/
private theorem equal_of_place {n : Nat} {g : Group} (hg : groups[n]? = some g)
    (h : place groups key = n) : g.key.equal key = true := by
  obtain ⟨hlt, rfl⟩ := List.getElem?_eq_some_iff.mp hg
  subst h
  exact List.findIdx_getElem (p := fun g : Group => g.key.equal key) (w := hlt)

/-- Equal keys have one place, if the keys of the groups hold no double, either. -/
private theorem place_eq_of_equal {key' : Value} (hgroups : ∀ g ∈ groups, g.key.IsDoubleFree)
    (hkey : key.IsDoubleFree) (hkey' : key'.IsDoubleFree) (h : key.equal key' = true) :
    place groups key = place groups key' := by
  induction groups with
  | nil => rfl
  | cons g groups ih =>
    obtain ⟨hg, hgroups⟩ := List.forall_mem_cons.mp hgroups
    have hiff : g.key.equal key = true ↔ g.key.equal key' = true :=
      ⟨fun hk => Value.equal_trans hg hkey hkey' hk h, fun hk =>
        Value.equal_trans hg hkey' hkey hk ((Value.equal_comm key' key).trans h)⟩
    by_cases hk : g.key.equal key = true
    · rw [place_cons_pos hk, place_cons_pos (hiff.mp hk)]
    · rw [place_cons_neg hk, place_cons_neg (mt hiff.mpr hk), ih hgroups]

/-- **Adding all documents under keys without doubles** forms groups that partition them. -/
theorem partitions_addAll {keys : List Value} {ds : List Document}
    (hlength : keys.length = ds.length) (hkeys : ∀ key ∈ keys, key.IsDoubleFree) :
    Partitions keys ds (addAll [] (keys.zip ds)) := by
  have hfst : (keys.zip ds).map (·.1) = keys := List.map_fst_zip (Nat.le_of_eq hlength)
  have hfree : ∀ e ∈ keys.zip ds, e.1.IsDoubleFree := fun e he => hkeys _ (List.of_mem_zip he).1
  have hself : ∀ e ∈ keys.zip ds, e.1.equal e.1 = true := fun e he => Value.equal_self (hfree e he)
  have hplaced : ∀ key ∈ keys, place (addAll [] (keys.zip ds)) key <
      (addAll [] (keys.zip ds)).length := by
    intro key hkey
    rw [← hfst] at hkey
    obtain ⟨e, he, rfl⟩ := List.mem_map.mp hkey
    exact place_lt_of_addAll hself e he
  have hgroups : ∀ g ∈ addAll [] (keys.zip ds), g.key.IsDoubleFree :=
    forall_key_addAll (fun _ => nofun) hfree
  refine ⟨hplaced, fun n g hg => ?_, fun key hkey key' hkey' => ⟨fun hplace => ?_, ?_⟩, ?_, ?_⟩
  · have hmembers : g.members = membersAt (addAll [] (keys.zip ds)) n := by
      rw [membersAt, hg]
      rfl
    exact hmembers.trans (membersAt_addAll hself n)
  · -- Both are equal to the key of the group that they share.
    have hg := List.getElem?_eq_getElem (hplaced key hkey)
    have hleft := (Value.equal_comm _ _).trans (equal_of_place hg rfl)
    have hright := equal_of_place hg hplace.symm
    exact Value.equal_trans (hkeys key hkey) (hgroups _ (List.mem_of_getElem? hg))
      (hkeys key' hkey') hleft hright
  · exact place_eq_of_equal hgroups (hkeys key hkey) (hkeys key' hkey')
  · exact distinct_addAll List.Pairwise.nil _
  · rw [map_key_addAll, hfst]
    rfl

/-! ### Reports -/

/-- The accumulations under a name count the members of a group. -/
def Counts (spec : Document) (name : String) : Prop :=
  ∀ e ∈ spec, e.1 = name → ∃ x, e.2 = .document [(Accumulator.countName, x)]

variable {ms : List Document} {spec output out : Document}

/-- A report leaves the identity out and puts what each other accumulation makes under its name. -/
theorem report_cons {first : String} {accumulation : Value}
    (h : report ms ((first, accumulation) :: spec) output = .ok out) :
    first = idKey ∧ report ms spec output = .ok out ∨
      first ≠ idKey ∧ ∃ parts v, accumulation = .document parts ∧
        Document.accumulate parts ms = .ok v ∧ report ms spec (output.put first v) = .ok out := by
  unfold report at h
  split at h
  · next hfirst => exact Or.inl ⟨hfirst, h⟩
  · next hfirst =>
    rcases accumulation with a | items | parts
    · cases h
    · cases h
    · obtain ⟨v, hv, h⟩ := bind_eq_ok_iff.mp h
      exact Or.inr ⟨hfirst, parts, v, rfl, hv, h⟩

/-- A report keeps what stands under the identity, and under names that have no accumulation. -/
private theorem value?_report_of_ne (h : report ms spec output = .ok out) {name : String}
    (hname : name = idKey ∨ name ∉ Document.keys spec) : out.value? name = output.value? name := by
  induction spec generalizing output with
  | nil =>
    obtain rfl := Except.ok.inj h
    rfl
  | cons e spec ih =>
    have hrest : name = idKey ∨ name ∉ Document.keys spec :=
      hname.imp id fun h hmem => h (List.mem_cons_of_mem _ hmem)
    rcases report_cons h with ⟨-, h⟩ | ⟨hfirst, parts, v, -, -, h⟩
    · exact ih h hrest
    · have hne : e.1 ≠ name := by
        rintro rfl
        exact hname.elim hfirst fun h => h List.mem_cons_self
      rw [ih h hrest, Document.value?_put_of_ne output v hne]

/-- Under a name that counts, a report holds the number of the members. -/
private theorem value?_report_of_counts (h : report ms spec output = .ok out) {name : String}
    (hname : name ≠ idKey) (hcounts : Counts spec name) (hmem : name ∈ Document.keys spec) :
    out.value? name = some (.int64 (Int64.ofNat ms.length)) := by
  induction spec generalizing output with
  | nil => cases hmem
  | cons e spec ih =>
    have hrest : Counts spec name := fun e he => hcounts e (List.mem_cons_of_mem _ he)
    by_cases hlater : name ∈ Document.keys spec
    · rcases report_cons h with ⟨-, h⟩ | ⟨-, parts, v, -, -, h⟩
      · exact ih h hrest hlater
      · exact ih h hrest hlater
    · obtain rfl : name = e.1 := (List.mem_cons.mp hmem).resolve_right hlater
      obtain ⟨x, hx⟩ := hcounts e List.mem_cons_self rfl
      rcases report_cons h with ⟨hid, -⟩ | ⟨-, parts, v, hparts, hv, h⟩
      · exact absurd hid hname
      · obtain rfl := Value.document.inj (hparts.symm.trans hx)
        obtain rfl := Except.ok.inj hv
        rw [value?_report_of_ne h (Or.inr hlater), Document.value?_put_self]

/-- The documents of groups are made one by one. -/
private theorem toDocuments_eq_mapM (spec : Document) (groups : List Group) :
    toDocuments spec groups = groups.mapM (toDocument spec) :=
  eq_mapM_of_cons (g := toDocuments spec) rfl (fun _ _ => rfl) groups

end Group

/-! ### The stage -/

/-- **Grouping is a partition.** Where grouping succeeds and none of the computed keys holds a
double, the documents are partitioned into groups by their keys; one document is made of each group,
which holds the key of the group as its identity, and the numbers that it holds under a name that
counts add up to the number of documents. -/
theorem Stage.partitions_run_group [RegexEngine] {collection : String → List Document}
    {spec : Document} {ds outs : List Document}
    (h : (Stage.group spec).run collection ds = .ok outs)
    (hkeys : ∀ d ∈ ds, ∀ key, Value.evaluate d ((spec.value? idKey).getD .null) = .ok key →
      key.IsDoubleFree) :
    ∃ keys groups, ds.mapM (fun d => Value.evaluate d ((spec.value? idKey).getD .null)) = .ok keys ∧
      Group.Partitions keys ds groups ∧ groups.mapM (Group.toDocument spec) = .ok outs ∧
      outs.map (·.value? idKey) = groups.map (fun g => some g.key) ∧
      ∀ name ∈ Document.keys spec, name ≠ idKey → Group.Counts spec name → ds.length < 2 ^ 63 →
        ∃ counts : List Int64, outs.map (·.value? name) = counts.map (fun n => some (.int64 n)) ∧
          (counts.map Int64.toInt).sum = ds.length := by
  rw [run, Document.groupBy, bind_eq_ok_iff] at h
  obtain ⟨groups, hgroups, h⟩ := h
  obtain ⟨keys, hmap, rfl⟩ := Group.collect_eq_ok_iff.mp hgroups
  rw [Group.toDocuments_eq_mapM] at h
  have hlength : keys.length = ds.length := by
    have hlengths := congrArg List.length (mapM_eq_ok_iff.mp hmap)
    rwa [List.length_map, List.length_map, eq_comm] at hlengths
  have hfree : ∀ key ∈ keys, key.IsDoubleFree := fun key hkey => by
    obtain ⟨d, hd, hkey⟩ := exists_source_of_mapM hmap hkey
    exact hkeys d hd key hkey
  have hpartitions := Group.partitions_addAll hlength hfree
  refine ⟨keys, _, hmap, hpartitions, h, ?_, fun name hname hid hcounts hlt => ?_⟩
  · exact map_eq_map_of_mapM h fun g _ out hout => Group.value?_report_of_ne hout (Or.inl rfl)
  · have hshown := map_eq_map_of_mapM h fun g _ out hout =>
      Group.value?_report_of_counts hout hid hcounts hname
    refine ⟨(Group.addAll [] (keys.zip ds)).map fun g => Int64.ofNat g.members.length, ?_, ?_⟩
    · rw [hshown, List.map_map]
      rfl
    · have htotal := Group.sum_length_addAll [] (keys.zip ds)
      rw [List.length_zip, hlength, Nat.min_self, List.map_nil, List.sum_nil, Nat.zero_add]
        at htotal
      rw [Group.sum_toInt_length (htotal.symm ▸ hlt), htotal]

/-! ### Groups of days -/

/-- Documents with days, of which the last two have the day of an earlier one. -/
def daysToGroup : List Document :=
  [[("day", .int32 1)], [], [("day", .array [.int32 1])], [("day", .null)], [("day", .int64 1)]]

attribute [local instance] Runtime.engine

/-- There are three groups of days, and their numbers of members add up to five. -/
theorem Stage.partitions_run_group_daysToGroup :
    ∃ keys groups, Group.Partitions keys daysToGroup groups ∧
      groups.map (fun g => some g.key) = [some (.int32 1), some .null, some (.array [.int32 1])] ∧
      ∃ counts : List Int64,
        counts.map (fun n => some (Value.int64 n)) = [some (.int64 2), some (.int64 2),
          some (.int64 1)] ∧
        (counts.map Int64.toInt).sum = daysToGroup.length := by
  have hrun : (Stage.group [(idKey, .string "$day"), ("n", .document [("$count", .null)])]).run
      (fun _ => []) daysToGroup =
        .ok [[(idKey, .int32 1), ("n", .int64 2)], [(idKey, .null), ("n", .int64 2)],
          [(idKey, .array [.int32 1]), ("n", .int64 1)]] := rfl
  have hmap : daysToGroup.mapM (fun d => Value.evaluate d (.string "$day")) =
      .ok [.int32 1, .null, .array [.int32 1], .null, .int64 1] := rfl
  have hfree : ∀ key ∈ [.int32 1, .null, .array [.int32 1], .null, .int64 1],
      Value.IsDoubleFree key := by decide
  have hkeys : ∀ d ∈ daysToGroup, ∀ key, Value.evaluate d (.string "$day") = .ok key →
      key.IsDoubleFree := by
    intro d hd key hkey
    obtain ⟨key', hmem, hkey'⟩ := exists_result_of_mapM hmap hd
    exact Except.ok.inj (hkey.symm.trans hkey') ▸ hfree key' hmem
  obtain ⟨keys, groups, -, hpartitions, -, hids, hcounts⟩ := partitions_run_group hrun hkeys
  obtain ⟨counts, hcounts, hsum⟩ := hcounts "n" (by decide) (by decide)
    (by simp [Group.Counts, idKey, Accumulator.countName]) (by decide)
  exact ⟨keys, groups, hpartitions, hids.symm, counts, hcounts.symm, hsum⟩

end DocQuery
