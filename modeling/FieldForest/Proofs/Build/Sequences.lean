/-
  FieldForest.Proofs.Build.Sequences — sequences of items built part by part.

  The statements of a level are built in order, and the first that offends ends the build: one
  that means no field, or one whose name is taken. What stands behind it is never looked at, and
  of what stands in front of it only the names count. So what becomes of two sequences one after
  the other is known from what becomes of each, wherever blocks begin and end.

  Proved:
  - `result_buildEach_of_offends` / `result_buildEach_of_builds`: one step of the loop over a level.
  - `buildEach_eq_error_iff`: a level fails with what its first offending statement says.
  - `buildEach_append_of_fault` / `buildEach_append_of_fields`: a level behind one that fails, and
    behind one that builds.
  - `buildEach_of_free` / `buildEach_of_firstTaken` / `buildEach_of_offends`: what becomes of statements
    where names are taken in front, told by what becomes of them on their own.
  - `result_buildForest_statement`: a statement alone has the forest of its field.
  - `outcome_append`: what becomes of two lists of items one after the other.
-/
import FieldForest.Proofs.Build.Acceptance

namespace FieldForest

/-- A build fails as its top-level fields do, and has the forest of these. -/
theorem Value.result_buildForest (limit : Nesting.Limit) (v : Value) :
    (v.buildForest limit).result = (v.topFields limit).result := by
  rw [buildForest, Traced.result_bind]
  cases (v.topFields limit).result <;> rfl

namespace Statement

variable {limit : Nesting.Limit} {depth : Nat}

/-! ## The first offence -/

/-- `Offends limit depth seen s e`: at a level where the names `seen` are taken, the statement `s` is
    at fault for `e`. -/
inductive Offends (limit : Nesting.Limit) (depth : Nat) (seen : List Text) (s : Statement) : BuildError → Prop
  | itself {e : BuildError} : (s.build limit depth).result = .error e → Offends limit depth seen s e
  | taken : (s.build limit depth).result = .ok s.field → s.name ∈ seen →
      Offends limit depth seen s (.duplicate s.name s.item)

theorem offends_or_builds (limit : Nesting.Limit) (depth : Nat) (seen : List Text) (s : Statement) :
    (∃ e, s.Offends limit depth seen e) ∨ ((s.build limit depth).result = .ok s.field ∧ s.name ∉ seen) := by
  cases hbuild : (s.build limit depth).result with
  | error e => exact .inl ⟨e, .itself hbuild⟩
  | ok f =>
    obtain ⟨-, rfl⟩ := (build_eq_ok_iff s depth f).mp hbuild
    by_cases hname : s.name ∈ seen
    · exact .inl ⟨_, .taken hbuild hname⟩
    · exact .inr ⟨rfl, hname⟩

/-- Which names are taken counts, not in which order they were. -/
theorem Offends.congr {seen seen' : List Text} {s : Statement} {e : BuildError} (h : s.Offends limit depth seen e)
    (hseen : ∀ t, t ∈ seen ↔ t ∈ seen') : s.Offends limit depth seen' e := by
  cases h with
  | itself hbuild => exact .itself hbuild
  | taken hbuild hname => exact .taken hbuild ((hseen _).mp hname)

/-- The step of the loop at a statement that offends. -/
theorem result_buildEach_of_offends {seen : List Text} {s : Statement} {e : BuildError}
    (h : s.Offends limit depth seen e) (ss : List Statement) :
    (buildEach limit depth seen (s :: ss)).result = .error e := by
  rw [buildEach, Traced.result_bind]
  cases h with
  | itself hbuild =>
    rw [hbuild]
    rfl
  | taken hbuild hname =>
    rw [hbuild]
    show (if s.field.id ∈ seen then _ else _ : Traced BuildError (List Field)).result = _
    rw [id_field, if_pos hname]
    rfl

/-- The step at a statement that does not. -/
theorem result_buildEach_of_builds {seen : List Text} {s : Statement}
    (hbuild : (s.build limit depth).result = .ok s.field) (hname : s.name ∉ seen) (ss : List Statement) :
    (buildEach limit depth seen (s :: ss)).result =
      (buildEach limit depth (s.name :: seen) ss).result.map (s.field :: ·) := by
  rw [buildEach, Traced.result_bind, hbuild]
  show (if s.field.id ∈ seen then _ else _ : Traced BuildError (List Field)).result = _
  rw [id_field, if_neg hname, Traced.result_bind]
  cases (buildEach limit depth (s.name :: seen) ss).result <;> rfl

theorem names_of_builds {seen : List Text} {ss : List Statement} {fields : List Field}
    (h : (buildEach limit depth seen ss).result = .ok fields) : fields.map Field.id = ss.map name := by
  obtain ⟨-, -, -, rfl⟩ := (buildEach_eq_ok_iff ss seen fields).mp h
  rw [List.map_map]
  exact List.map_congr_left fun s _ => id_field s

/-! ## One level behind another -/

/-- Behind statements that fail nothing more is looked at. -/
theorem buildEach_append_of_fault {seen : List Text} {ss : List Statement} {e : BuildError}
    (h : (buildEach limit depth seen ss).result = .error e) (ts : List Statement) :
    (buildEach limit depth seen (ss ++ ts)).result = .error e := by
  rw [buildEach_append, Traced.result_bind, h]
  rfl

/-- Behind statements that build their names are taken. -/
theorem buildEach_append_of_fields {seen : List Text} {ss : List Statement} {fields : List Field}
    (h : (buildEach limit depth seen ss).result = .ok fields) (ts : List Statement) :
    (buildEach limit depth seen (ss ++ ts)).result =
      (buildEach limit depth (fields.map Field.id ++ seen) ts).result.map (fields ++ ·) := by
  rw [buildEach_append, Traced.result_bind, h]
  show (buildEach limit depth (fields.map Field.id ++ seen) ts >>= _).result = _
  rw [Traced.result_bind]
  cases (buildEach limit depth (fields.map Field.id ++ seen) ts).result <;> rfl

/-- A level fails with what the first statement says that offends. -/
theorem buildEach_eq_error_iff {seen : List Text} {ss : List Statement} {e : BuildError} :
    (buildEach limit depth seen ss).result = .error e ↔
      ∃ before s after, ss = before ++ s :: after ∧
        (∃ fields, (buildEach limit depth seen before).result = .ok fields) ∧
        s.Offends limit depth (before.map name ++ seen) e := by
  constructor
  · intro h
    induction ss generalizing seen with
    | nil => cases h
    | cons s ss ih =>
      rcases offends_or_builds limit depth seen s with ⟨e', hoffends⟩ | ⟨hbuild, hname⟩
      · rw [result_buildEach_of_offends hoffends] at h
        cases h
        exact ⟨[], s, ss, rfl, ⟨[], rfl⟩, hoffends⟩
      · rw [result_buildEach_of_builds hbuild hname] at h
        cases hrest : (buildEach limit depth (s.name :: seen) ss).result with
        | ok fields =>
          rw [hrest] at h
          cases h
        | error e' =>
          rw [hrest] at h
          cases h
          obtain ⟨before, t, after, rfl, ⟨fields, hbefore⟩, hoffends⟩ := ih hrest
          refine ⟨s :: before, t, after, rfl, ⟨s.field :: fields, ?_⟩, ?_⟩
          · rw [result_buildEach_of_builds hbuild hname, hbefore]
            rfl
          · exact hoffends.congr fun t => by simp [or_left_comm]
  · rintro ⟨before, s, after, rfl, ⟨fields, hbefore⟩, hoffends⟩
    rw [buildEach_append_of_fields hbefore, names_of_builds hbefore, result_buildEach_of_offends hoffends]
    rfl

/-! ## Names that are taken in front -/

/-- `FirstTaken taken ss front s rest`: in `ss` the first statement whose name is among `taken` is `s`,
    behind `front` and in front of `rest`. -/
structure FirstTaken (taken : List Text) (ss front : List Statement) (s : Statement) (rest : List Statement) : Prop where
  split : ss = front ++ s :: rest
  name_mem : s.name ∈ taken
  front_free : ∀ t ∈ front, t.name ∉ taken

theorem exists_firstTaken {taken : List Text} {ss : List Statement} {s : Statement} (hs : s ∈ ss)
    (hname : s.name ∈ taken) : ∃ front t rest, FirstTaken taken ss front t rest := by
  have hfind : (ss.find? fun t => decide (t.name ∈ taken)).isSome = true :=
    List.find?_isSome.mpr ⟨s, hs, decide_eq_true hname⟩
  obtain ⟨t, ht⟩ := Option.isSome_iff_exists.mp hfind
  obtain ⟨htaken, front, rest, hsplit, hfront⟩ := List.find?_eq_some_iff_append.mp ht
  refine ⟨front, t, rest, hsplit, of_decide_eq_true htaken, fun u hu => ?_⟩
  simpa using hfront u hu

/-- Statements that build on their own build behind others whose names they do not repeat. -/
theorem buildEach_of_free {taken : List Text} {ss : List Statement} {fields : List Field}
    (h : (buildEach limit depth [] ss).result = .ok fields) (hfree : ∀ s ∈ ss, s.name ∉ taken) :
    (buildEach limit depth taken ss).result = .ok fields := by
  obtain ⟨hsound, -, hnodup, hfields⟩ := (buildEach_eq_ok_iff ss [] fields).mp h
  exact (buildEach_eq_ok_iff ss taken fields).mpr ⟨hsound, hfree, hnodup, hfields⟩

/-- If statements build on their own, then behind others the first one whose name is taken is a
    duplicate, whatever follows. -/
theorem buildEach_of_firstTaken {taken : List Text} {ss front rest : List Statement} {s : Statement}
    {fields : List Field} (h : (buildEach limit depth [] ss).result = .ok fields)
    (hfirst : FirstTaken taken ss front s rest) (more : List Statement) :
    (buildEach limit depth taken (ss ++ more)).result = .error (.duplicate s.name s.item) := by
  obtain ⟨rfl, hname, hfree⟩ := hfirst
  obtain ⟨hsound, -, hnodup, -⟩ := (buildEach_eq_ok_iff _ [] fields).mp h
  have hfront : (buildEach limit depth taken front).result = .ok (front.map field) := by
    refine (buildEach_eq_ok_iff front taken _).mpr ⟨fun t ht => hsound t (List.mem_append_left _ ht), hfree, ?_, rfl⟩
    rw [List.map_append] at hnodup
    exact (List.nodup_append.mp hnodup).1
  have hbuild : (s.build limit depth).result = .ok s.field :=
    (build_eq_ok_iff s depth _).mpr ⟨hsound s (List.mem_append_right _ List.mem_cons_self), rfl⟩
  rw [List.append_assoc, List.cons_append]
  exact buildEach_eq_error_iff.mpr ⟨front, s, rest ++ more, rfl, ⟨_, hfront⟩,
    .taken hbuild (List.mem_append_right _ hname)⟩

/-- If statements fail on their own, they fail in the same way behind others, unless one in front of
    the first offence has a name that is taken there. -/
theorem buildEach_of_offends {taken : List Text} {before after : List Statement} {s : Statement}
    {fields : List Field} {e : BuildError} (hbefore : (buildEach limit depth [] before).result = .ok fields)
    (hoffends : s.Offends limit depth (before.map name) e) (hfree : ∀ t ∈ before, t.name ∉ taken) :
    (buildEach limit depth taken (before ++ s :: after)).result = .error e := by
  refine buildEach_eq_error_iff.mpr ⟨before, s, after, rfl, ⟨fields, buildEach_of_free hbefore hfree⟩, ?_⟩
  cases hoffends with
  | itself hbuild => exact .itself hbuild
  | taken hbuild hname => exact .taken hbuild (List.mem_append_left _ hname)

end Statement

/-! ## Lists of items -/

namespace Item

variable (limit : Nesting.Limit)

/-- What becomes of a list of items: its forest, or why it has none. -/
def outcome (items : List Item) : Except BuildError (List Field) :=
  ((Value.list (items.map .item)).buildForest limit).result

theorem outcome_eq (items : List Item) :
    outcome limit items = (Statement.buildEach limit 1 [] (allStatements items)).result := by
  have hitems : (Value.list (items.map .item)).items? = some items := Value.mapM_item?_eq_some_iff.mpr rfl
  have hstatements : (Value.list (items.map .item)).statements? = some (allStatements items) := by
    rw [Value.statements?, hitems]
    rfl
  rw [outcome, Value.result_buildForest, Value.topFields_of_statements? limit hstatements]

theorem outcome_map_item (ss : List Statement) :
    outcome limit (ss.map Statement.item) = (Statement.buildEach limit 1 [] ss).result := by
  rw [outcome_eq, Statement.allStatements_map_item]

theorem allStatements_append (xs ys : List Item) : allStatements (xs ++ ys) = allStatements xs ++ allStatements ys := by
  induction xs with
  | nil => rfl
  | cons x xs ih => rw [List.cons_append, allStatements, allStatements, ih, List.append_assoc]

/-- `FailsAt limit before s e`: of these statements in a list, those in front of `s` have a forest, and
    with `s` behind them the list fails for `e`. -/
structure FailsAt (before : List Statement) (s : Statement) (e : BuildError) : Prop where
  builds : ∃ forest, outcome limit (before.map Statement.item) = .ok forest
  fails : outcome limit ((before ++ [s]).map Statement.item) = .error e

variable {limit} {xs ys : List Item} {forest more : List Field} {e : BuildError}

theorem outcome_append_of_fault (h : outcome limit xs = .error e) (ys : List Item) :
    outcome limit (xs ++ ys) = .error e := by
  rw [outcome_eq] at h ⊢
  rw [allStatements_append]
  exact Statement.buildEach_append_of_fault h _

/-- Behind a list with a forest the names of its roots are taken. -/
theorem outcome_append_of_forest (h : outcome limit xs = .ok forest) (ys : List Item) :
    outcome limit (xs ++ ys) =
      (Statement.buildEach limit 1 (forest.map Field.id) (allStatements ys)).result.map (forest ++ ·) := by
  rw [outcome_eq] at h ⊢
  rw [allStatements_append, Statement.buildEach_append_of_fields h, List.append_nil]

theorem outcome_append_of_free (hxs : outcome limit xs = .ok forest) (hys : outcome limit ys = .ok more)
    (hfree : ∀ t ∈ more.map Field.id, t ∉ forest.map Field.id) : outcome limit (xs ++ ys) = .ok (forest ++ more) := by
  rw [outcome_eq] at hys
  rw [Statement.names_of_builds hys, List.forall_mem_map] at hfree
  rw [outcome_append_of_forest hxs, Statement.buildEach_of_free hys hfree]
  rfl

theorem outcome_append_of_shared (hxs : outcome limit xs = .ok forest) (hys : outcome limit ys = .ok more)
    {t : Text} (hforest : t ∈ forest.map Field.id) (hmore : t ∈ more.map Field.id) :
    ∃ front s rest, Statement.FirstTaken (forest.map Field.id) (allStatements ys) front s rest ∧
      outcome limit (xs ++ ys) = .error (.duplicate s.name s.item) := by
  rw [outcome_eq] at hys
  rw [Statement.names_of_builds hys] at hmore
  obtain ⟨u, hu, rfl⟩ := List.mem_map.mp hmore
  obtain ⟨front, s, rest, hfirst⟩ := Statement.exists_firstTaken hu hforest
  have hduplicate := Statement.buildEach_of_firstTaken hys hfirst []
  rw [List.append_nil] at hduplicate
  refine ⟨front, s, rest, hfirst, ?_⟩
  rw [outcome_append_of_forest hxs, hduplicate]
  rfl

theorem outcome_append_of_failsAt (hxs : outcome limit xs = .ok forest) (hys : outcome limit ys = .error e) :
    ∃ before s after, allStatements ys = before ++ s :: after ∧ FailsAt limit before s e ∧
      ((∀ t ∈ before, t.name ∉ forest.map Field.id) → outcome limit (xs ++ ys) = .error e) ∧
      ∀ front t rest, Statement.FirstTaken (forest.map Field.id) before front t rest →
        outcome limit (xs ++ ys) = .error (.duplicate t.name t.item) := by
  rw [outcome_eq] at hys
  obtain ⟨before, s, after, hsplit, ⟨fields, hbefore⟩, hoffends⟩ := Statement.buildEach_eq_error_iff.mp hys
  rw [List.append_nil] at hoffends
  refine ⟨before, s, after, hsplit, ⟨⟨fields, ?_⟩, ?_⟩, fun hfree => ?_, fun front t rest hfirst => ?_⟩
  · rw [outcome_map_item, hbefore]
  · rw [outcome_map_item]
    exact Statement.buildEach_of_offends hbefore hoffends fun t _ => List.not_mem_nil
  · rw [outcome_append_of_forest hxs, hsplit, Statement.buildEach_of_offends hbefore hoffends hfree]
    rfl
  · rw [outcome_append_of_forest hxs, hsplit, Statement.buildEach_of_firstTaken hbefore hfirst]
    rfl

end Item

/-- A statement alone has the forest of its field, or fails as it does. -/
theorem Value.result_buildForest_statement (limit : Nesting.Limit) (s : Statement) :
    ((Value.item s.item).buildForest limit).result = ((Value.item s.item).buildField limit).result.map ([·]) := by
  have hfield : (Value.item s.item).buildField limit = s.build limit 1 := rfl
  have hstatements : (Value.item s.item).statements? = some [s] := rfl
  rw [result_buildForest, topFields_of_statements? limit hstatements, hfield]
  rcases Statement.offends_or_builds limit 1 [] s with ⟨e, hoffends⟩ | ⟨hbuild, hname⟩
  · rw [Statement.result_buildEach_of_offends hoffends]
    cases hoffends with
    | itself hbuild => rw [hbuild]; rfl
    | taken _ hname => cases hname
  · rw [Statement.result_buildEach_of_builds hbuild hname, hbuild]
    rfl

/-- What becomes of two lists of items one after the other: a list that fails, fails with anything
    behind it; two forests without a common name among their roots are one forest; else the first
    statement of the second list that has a name of the first forest is a duplicate; and if the
    second list fails at one of its statements, both fail there in the same way, unless such a
    duplicate comes first. A statement alone has the forest of its field, or fails as it does. -/
theorem Item.outcome_append (limit : Nesting.Limit) (xs ys : List Item) :
    (∀ e, outcome limit xs = .error e → outcome limit (xs ++ ys) = .error e) ∧
    (∀ forest more, outcome limit xs = .ok forest → outcome limit ys = .ok more →
      ((∀ t ∈ more.map Field.id, t ∉ forest.map Field.id) → outcome limit (xs ++ ys) = .ok (forest ++ more)) ∧
      ∀ t ∈ more.map Field.id, t ∈ forest.map Field.id →
        ∃ front s rest, Statement.FirstTaken (forest.map Field.id) (allStatements ys) front s rest ∧
          outcome limit (xs ++ ys) = .error (.duplicate s.name s.item)) ∧
    (∀ forest e, outcome limit xs = .ok forest → outcome limit ys = .error e →
      ∃ before s after, allStatements ys = before ++ s :: after ∧ FailsAt limit before s e ∧
        ((∀ t ∈ before, t.name ∉ forest.map Field.id) → outcome limit (xs ++ ys) = .error e) ∧
        ∀ front t rest, Statement.FirstTaken (forest.map Field.id) before front t rest →
          outcome limit (xs ++ ys) = .error (.duplicate t.name t.item)) ∧
    ∀ s : Statement,
      ((Value.item s.item).buildForest limit).result = ((Value.item s.item).buildField limit).result.map ([·]) := by
  refine ⟨fun e hxs => outcome_append_of_fault hxs ys, fun forest more hxs hys => ⟨outcome_append_of_free hxs hys, ?_⟩,
    fun forest e hxs hys => outcome_append_of_failsAt hxs hys, Value.result_buildForest_statement limit⟩
  exact fun t hmore hforest => outcome_append_of_shared hxs hys hforest hmore

/-- Behind the field `a` a block with `b` builds, one that says `a` again has a duplicate there, and an
    unknown keyword is found where no such duplicate comes first. -/
theorem Item.outcome_append_behind_one :
    let a : Statement := ⟨"requires", [.text "a", .text "int"]⟩
    let b : Statement := ⟨"optional", [.text "b", .text "int"]⟩
    let unknown : Statement := ⟨"needs", [.text "c", .text "int"]⟩
    outcome .usual ([.block [unknown.item]] ++ [a.item]) = .error (.unknownKeyword "needs" unknown.item) ∧
      outcome .usual ([a.item] ++ [.block [b.item]]) =
        .ok ([.mk "a" "int" [] true [] []] ++ [.mk "b" "int" [] false [] []]) ∧
      (∃ front s rest, Statement.FirstTaken [("a" : Text)] [b, a] front s rest ∧
        outcome .usual ([a.item] ++ [b.item, .block [a.item]]) = .error (.duplicate s.name s.item)) ∧
      outcome .usual ([a.item] ++ [.block [b.item, unknown.item], a.item]) =
        .error (.unknownKeyword "needs" unknown.item) ∧
      ((Value.item b.item).buildForest .usual).result = ((Value.item b.item).buildField .usual).result.map ([·]) := by
  intro a b unknown
  have ha : outcome .usual [a.item] = .ok [.mk "a" "int" [] true [] []] := rfl
  have hb : outcome .usual [.block [b.item]] = .ok [.mk "b" "int" [] false [] []] := rfl
  have hba : outcome .usual [b.item, .block [a.item]] =
      .ok [.mk "b" "int" [] false [] [], .mk "a" "int" [] true [] []] := rfl
  have hunknown : outcome .usual [.block [unknown.item]] = .error (.unknownKeyword "needs" unknown.item) := rfl
  have hbehind : outcome .usual [.block [b.item, unknown.item], a.item] =
      .error (.unknownKeyword "needs" unknown.item) := rfl
  refine ⟨(outcome_append .usual _ _).1 _ hunknown, ?_, ?_, ?_, (outcome_append .usual [] []).2.2.2 b⟩
  · exact ((outcome_append .usual _ _).2.1 _ _ ha hb).1 (by decide)
  · exact ((outcome_append .usual _ _).2.1 _ _ ha hba).2 "a" (by decide) (by decide)
  · obtain ⟨before, s, after, hsplit, -, hsame, -⟩ := (outcome_append .usual _ _).2.2.1 _ _ ha hbehind
    refine hsame fun t ht => ?_
    have hsplit : [b, unknown, a] = before ++ s :: after := hsplit
    have hlength : before.length ≤ 2 := by
      have := congrArg List.length hsplit
      simp at this
      omega
    have ht : t ∈ [b, unknown, a].take before.length := by rwa [hsplit, List.take_left]
    have ht : t ∈ [b, unknown] := List.take_subset_take_left [b, unknown, a] hlength ht
    rw [List.mem_cons, List.mem_singleton] at ht
    rcases ht with rfl | rfl <;> decide

end FieldForest
