import DocQuery.Proofs.JoinedRows

/-!
# The two sides of a join's condition

An advanced join on one equality of two fields does not say which of them is the foreign one. It is
run as the plain join whose foreign field is the side that belongs to the join's key, and the left
side if both do (`Join.link_onEqual_left`, `Join.link_onEqual_right`). So the sides can be swapped
unless both belong to the key, as they do in a join of a collection with itself under its own name.
Then the swap exchanges the foreign and the local field.

`Pipeline.compile_swapped_iff` says exactly when the pipeline of a query does not notice the swap,
wherever the join stands among others. The pipeline depends on its joins through their lookups alone
(`Pipeline.compile_congr`), and the stages of a pipeline show the lookup of each join
(`Pipeline.exists_lookup_of_compile`).
-/

namespace DocQuery

/-! ### Lookups of a condition -/

namespace Join

/-- The advanced join on the equality of two fields. -/
def onEqual (schema : String) (alias? : Option String) (kind : JoinKind) (lhs rhs : Field) : Join :=
  .advanced schema alias? kind [.fields lhs (.equality false) rhs]

/-- Joins with one link have one lookup. -/
private theorem lookup_congr {j j' : Join} (h : j.link = j'.link) : j.lookup = j'.lookup := by
  rw [lookup, lookup, h]

/-- The lookups of joins around one join. -/
theorem lookups_append_cons (before after : List Join) (j : Join) :
    lookups (before ++ j :: after) =
      (do
        let before ← lookups before
        let l ← j.lookup
        let after ← lookups after
        pure (before ++ l :: after)) := by
  simp only [lookups_eq_mapM, List.mapM_append, List.mapM_cons, bind_assoc, pure_bind]

section OnEqual

variable {schema : String} {alias? : Option String} {kind : JoinKind} {lhs rhs : Field}

/-- If the left side belongs to the join's key, it is the foreign field. -/
theorem link_onEqual_left (h : lhs.schema? = some (alias?.getD schema)) :
    (onEqual schema alias? kind lhs rhs).link = (equality schema alias? kind lhs rhs).link := by
  have horient : orient (alias?.getD schema) lhs rhs = .ok (lhs, rhs) := if_pos h
  change (orient (alias?.getD schema) lhs rhs >>= _) = _
  rw [horient]
  rfl

/-- If only the right side belongs to the join's key, that is the foreign field. -/
theorem link_onEqual_right (hl : lhs.schema? ≠ some (alias?.getD schema))
    (hr : rhs.schema? = some (alias?.getD schema)) :
    (onEqual schema alias? kind lhs rhs).link = (equality schema alias? kind rhs lhs).link := by
  have horient : orient (alias?.getD schema) lhs rhs = .ok (rhs, lhs) :=
    (if_neg hl).trans (if_pos hr)
  change (orient (alias?.getD schema) lhs rhs >>= _) = _
  rw [horient]
  rfl

/-- A condition on other fields cannot be run. -/
private theorem link_onEqual_neither (hl : lhs.schema? ≠ some (alias?.getD schema))
    (hr : rhs.schema? ≠ some (alias?.getD schema)) :
    (onEqual schema alias? kind lhs rhs).link = .error .unsupportedJoin := by
  have horient : orient (alias?.getD schema) lhs rhs = .error .unsupportedJoin :=
    (if_neg hl).trans (if_neg hr)
  change (orient (alias?.getD schema) lhs rhs >>= _) = _
  rw [horient]
  rfl

/-- The sides of a condition can be swapped unless both belong to the join's key. -/
theorem lookup_onEqual_comm
    (h : ¬(lhs.schema? = some (alias?.getD schema) ∧ rhs.schema? = some (alias?.getD schema))) :
    (onEqual schema alias? kind rhs lhs).lookup = (onEqual schema alias? kind lhs rhs).lookup := by
  refine lookup_congr ?_
  by_cases hl : lhs.schema? = some (alias?.getD schema)
  · have hr : rhs.schema? ≠ some (alias?.getD schema) := fun hr => h ⟨hl, hr⟩
    rw [link_onEqual_left hl, link_onEqual_right hr hl]
  · by_cases hr : rhs.schema? = some (alias?.getD schema)
    · rw [link_onEqual_right hl hr, link_onEqual_left hr]
    · rw [link_onEqual_neither hl hr, link_onEqual_neither hr hl]

/-- The lookup of a plain join has the paths of its fields; that of the local field is resolved
first. -/
theorem lookup_equality :
    (equality schema alias? kind lhs rhs).lookup =
      (do
        let required ← isRequired kind
        let localPath ← rhs.qualifiedPath
        let foreignPath ← lhs.plainPath
        pure ⟨schema, alias?.getD schema, localPath, foreignPath, required⟩) :=
  rfl

/-- Two fields of one collection can be exchanged if they lead to one place of a row, or if neither
can be found in a row. -/
theorem lookup_equality_comm (hschema : lhs.schema? = rhs.schema?)
    (hpath : lhs.qualifiedPath = rhs.qualifiedPath) :
    (equality schema alias? kind rhs lhs).lookup =
      (equality schema alias? kind lhs rhs).lookup := by
  rw [lookup_equality, lookup_equality, hpath]
  rcases hrhs : rhs.qualifiedPath with e | qualified
  · rfl
  · obtain ⟨owner, path, howner, hplain, hqualified⟩ :=
      Field.exists_of_qualifiedPath (hpath.trans hrhs)
    obtain ⟨owner', path', howner', hplain', hqualified'⟩ := Field.exists_of_qualifiedPath hrhs
    obtain rfl : owner = owner' :=
      Option.some.inj (howner.symm.trans (hschema.trans howner'))
    obtain rfl : path = path' := Path.through_inj (hqualified.symm.trans hqualified')
    rw [hplain, hplain']

/-- The local path of a plain join is that of its local field in a row. -/
private theorem qualifiedPath_of_lookup {l : Lookup}
    (h : (equality schema alias? kind lhs rhs).lookup = .ok l) :
    rhs.qualifiedPath = .ok l.localPath := by
  rw [lookup_equality] at h
  obtain ⟨required, -, h⟩ := bind_eq_ok_iff.mp h
  obtain ⟨localPath, hlocal, h⟩ := bind_eq_ok_iff.mp h
  obtain ⟨foreignPath, -, h⟩ := bind_eq_ok_iff.mp h
  obtain rfl := Except.ok.inj h
  exact hlocal

end OnEqual

end Join

/-! ### Pipelines -/

namespace Pipeline

/-- **A pipeline depends on its joins** through their lookups alone. -/
theorem compile_congr (q : Query) {js js' : List Join} (h : Join.lookups js = Join.lookups js') :
    compile { q with joins := js } = compile { q with joins := js' } := by
  rw [compile_eq, compile_eq]
  change (Join.lookups js >>= _) = (Join.lookups js' >>= _)
  rw [h]
  rfl

/-- The stages of a pipeline show the lookup of each join, behind those of the joins before it. -/
theorem exists_lookup_of_compile {q : Query} {before after : List Join} {j : Join} {p : Pipeline}
    (h : compile { q with joins := before ++ j :: after } = .ok p) :
    ∃ earlier l rest, Join.lookups before = .ok earlier ∧ j.lookup = .ok l ∧
      p.stages = rootStage q.schema :: (earlier.flatMap lookupStages ++ lookupStage l :: rest) := by
  rw [compile_eq] at h
  obtain ⟨ls, hls, h⟩ := bind_eq_ok_iff.mp h
  obtain ⟨sel, -, h⟩ := bind_eq_ok_iff.mp h
  obtain ⟨listed, -, h⟩ := bind_eq_ok_iff.mp h
  obtain rfl := Except.ok.inj h
  replace hls := (Join.lookups_append_cons before after j).symm.trans hls
  obtain ⟨earlier, hearlier, hls⟩ := bind_eq_ok_iff.mp hls
  obtain ⟨l, hl, hls⟩ := bind_eq_ok_iff.mp hls
  obtain ⟨later, -, hls⟩ := bind_eq_ok_iff.mp hls
  obtain rfl := Except.ok.inj hls
  obtain ⟨rest, hrest⟩ : ∃ rest, lookupStages l = lookupStage l :: rest := by
    rw [lookupStages]
    split
    · exact ⟨[unwindStage l], rfl⟩
    · exact ⟨[], rfl⟩
  refine ⟨earlier, l, rest ++ (later.flatMap lookupStages ++
    (selectionStages sel ++ [projectStage listed])), hearlier, hl, ?_⟩
  change stagesOf q.schema (earlier ++ l :: later) sel listed = _
  simp only [stagesOf, List.flatMap_append, List.flatMap_cons, hrest, List.append_assoc,
    List.cons_append]

/-- Two joins that one pipeline has in one place have one local path. -/
private theorem localPath_eq_of_compile {q : Query} {before after : List Join} {j j' : Join}
    {p : Pipeline} {l l' : Lookup} (h : compile { q with joins := before ++ j :: after } = .ok p)
    (h' : compile { q with joins := before ++ j' :: after } = .ok p) (hl : j.lookup = .ok l)
    (hl' : j'.lookup = .ok l') : l.localPath = l'.localPath := by
  obtain ⟨earlier, found, rest, hearlier, hfound, hstages⟩ := exists_lookup_of_compile h
  obtain ⟨earlier', found', rest', hearlier', hfound', hstages'⟩ := exists_lookup_of_compile h'
  obtain rfl := Except.ok.inj (hearlier.symm.trans hearlier')
  obtain rfl := Except.ok.inj (hl.symm.trans hfound)
  obtain rfl := Except.ok.inj (hl'.symm.trans hfound')
  obtain ⟨-, hbehind⟩ := List.cons.inj (hstages.symm.trans hstages')
  obtain ⟨hstage, -⟩ := List.cons.inj (List.append_cancel_left hbehind)
  simp only [lookupStage, List.cons.injEq, Prod.mk.injEq, Value.document.injEq,
    Value.atom.injEq, Atom.string.injEq] at hstage
  exact hstage.1.2.2.1.2

/-- **The sides of an advanced join's condition** can be swapped, wherever the join stands among the
joins of a query and whatever it is attached under, unless both sides belong to the join's key. If
they do, the left side is the foreign field, as in a plain join, and the swap is not noticed exactly
if both lead to one place of a row, or neither can be found in one, or if both queries fail with one
error. -/
theorem compile_swapped_iff (q : Query) (before after : List Join) (schema : String)
    (alias? : Option String) (kind : JoinKind) (lhs rhs : Field) :
    let key := alias?.getD schema
    let given := compile { q with joins := before ++ .onEqual schema alias? kind lhs rhs :: after }
    let swapped :=
      compile { q with joins := before ++ .onEqual schema alias? kind rhs lhs :: after }
    (swapped = given ↔
        ¬(lhs.schema? = some key ∧ rhs.schema? = some key) ∨
          lhs.qualifiedPath = rhs.qualifiedPath ∨ ∃ e, given = .error e ∧ swapped = .error e) ∧
      (lhs.schema? = some key →
        given =
          compile { q with joins := before ++ .equality schema alias? kind lhs rhs :: after }) := by
  intro key given swapped
  have hcongr : ∀ {j j' : Join}, j.lookup = j'.lookup →
      compile { q with joins := before ++ j :: after } =
        compile { q with joins := before ++ j' :: after } := by
    intro j j' h
    refine compile_congr q ?_
    rw [Join.lookups_append_cons, Join.lookups_append_cons, h]
  refine ⟨⟨fun h => ?_, ?_⟩, fun hl => hcongr (Join.lookup_congr (Join.link_onEqual_left hl))⟩
  · by_cases hboth : lhs.schema? = some key ∧ rhs.schema? = some key
    · refine .inr ?_
      rcases hgiven : given with e | p
      · exact .inr ⟨e, rfl, h.trans hgiven⟩
      · -- A pipeline shows the local path of the join, which is that of the right side.
        have hswapped : swapped = .ok p := h.trans hgiven
        obtain ⟨_, l, _, -, hl, -⟩ := exists_lookup_of_compile hgiven
        obtain ⟨_, l', _, -, hl', -⟩ := exists_lookup_of_compile hswapped
        have hrhs : rhs.qualifiedPath = .ok l.localPath :=
          Join.qualifiedPath_of_lookup
            ((Join.lookup_congr (Join.link_onEqual_left hboth.1)).symm.trans hl)
        have hlhs : lhs.qualifiedPath = .ok l'.localPath :=
          Join.qualifiedPath_of_lookup
            ((Join.lookup_congr (Join.link_onEqual_left hboth.2)).symm.trans hl')
        exact .inl (by rw [hlhs, hrhs, localPath_eq_of_compile hgiven hswapped hl hl'])
    · exact .inl hboth
  · rintro (hone | hpath | ⟨e, hgiven, hswapped⟩)
    · exact hcongr (Join.lookup_onEqual_comm hone)
    · by_cases hboth : lhs.schema? = some key ∧ rhs.schema? = some key
      · refine hcongr ?_
        rw [Join.lookup_congr (Join.link_onEqual_left hboth.1),
          Join.lookup_congr (Join.link_onEqual_left hboth.2)]
        exact Join.lookup_equality_comm (hboth.1.trans hboth.2.symm) hpath
      · exact hcongr (Join.lookup_onEqual_comm hboth)
    · exact hswapped.trans hgiven.symm

/-- A read of users with their addresses. -/
def addressedUsers : Query where
  schema := "users"
  action := .read
  joins := [.left "addresses" (.single (.name "user") "addresses") (.identity "users")]

/-- Pets under a key of their own can be joined to users behind the addresses from either side; the
side of the pets is the foreign one. -/
theorem compile_swapped_iff_petsOfUsers :
    let owner : Field := .single (.name "owner") "pet"
    let withPets := fun j : Join =>
      compile { addressedUsers with joins := addressedUsers.joins ++ [j] }
    owner.schema? = some "pet" ∧
      withPets (.onEqual "pets" (some "pet") .inner (.identity "users") owner) =
        withPets (.onEqual "pets" (some "pet") .inner owner (.identity "users")) ∧
      withPets (.onEqual "pets" (some "pet") .inner owner (.identity "users")) =
        withPets (.equality "pets" (some "pet") .inner owner (.identity "users")) ∧
      ∃ p, withPets (.onEqual "pets" (some "pet") .inner owner (.identity "users")) = .ok p ∧
        p.stages[2]? = some (lookupStage ⟨"pets", "pet", "users._id", "owner", true⟩) := by
  intro owner withPets
  obtain ⟨hswap, hplain⟩ := compile_swapped_iff addressedUsers addressedUsers.joins [] "pets"
    (some "pet") .inner owner (.identity "users")
  exact ⟨rfl, hswap.mpr (.inl (by decide)), hplain rfl, _, rfl, rfl⟩

/-- A read of people with other people under the same name, where two fields agree. -/
def peopleWhere (lhs rhs : Field) : Query where
  schema := "people"
  action := .read
  joins := [.onEqual "people" none .inner lhs rhs]

/-- **The sides cannot be swapped in a join of a collection with itself** under its own name. If the
superior stands on the left, the join looks up those whose superior a person is; if the identity
does, it looks up the superior of a person. -/
theorem compile_peopleWhere_ne :
    let boss : Field := .single (.name "boss") "people"
    let person : Field := .identity "people"
    ∃ staff superiors, compile (peopleWhere boss person) = .ok staff ∧
      compile (peopleWhere person boss) = .ok superiors ∧
      staff.stages[1]? = some (lookupStage ⟨"people", "people", "people._id", "boss", true⟩) ∧
      superiors.stages[1]? =
        some (lookupStage ⟨"people", "people", "people.boss", "_id", true⟩) ∧
      staff.stages ≠ superiors.stages ∧
      compile (peopleWhere boss person) ≠ compile (peopleWhere person boss) := by
  intro boss person
  obtain ⟨staff, hstaff, hstaff1⟩ : ∃ p, compile (peopleWhere boss person) = .ok p ∧
      p.stages[1]? = some (lookupStage ⟨"people", "people", "people._id", "boss", true⟩) :=
    ⟨_, rfl, rfl⟩
  obtain ⟨superiors, hsuperiors, hsuperiors1⟩ : ∃ p, compile (peopleWhere person boss) = .ok p ∧
      p.stages[1]? = some (lookupStage ⟨"people", "people", "people.boss", "_id", true⟩) :=
    ⟨_, rfl, rfl⟩
  have hstages : staff.stages ≠ superiors.stages := by
    intro h
    rw [h, hsuperiors1] at hstaff1
    revert hstaff1
    decide
  refine ⟨staff, superiors, hstaff, hsuperiors, hstaff1, hsuperiors1, hstages, fun h => ?_⟩
  rw [hstaff, hsuperiors] at h
  exact hstages (congrArg stages (Except.ok.inj h))

end Pipeline

end DocQuery
