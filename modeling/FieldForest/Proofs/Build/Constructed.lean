/-
  FieldForest.Proofs.Build.Constructed — the build, with every field made by the constructor.

  A build takes a statement apart by its form and writes the field down as it is. Here it is done
  step by step, and every step can break down in a way of its own: an argument is fetched by its
  number, options and a body are taken for what the form says they are, and the constructor of
  fields is handed loose parts, which it checks by its own rules. So there is more that can go
  wrong than a declaration that means no fields, and the two builds agree since none of it does.

  The constructor refuses options without a truth value under the name of the flag, and options
  that hold declarations. What a build hands to it has passed the checks of the statement, where
  the flag is taken out and put in again by the keyword.

  Proved:
  - `mapError_bind_eq`: two builds agree if they do step by step, each step on what the last gave.
  - `make_eq_pure`: the constructor takes what the checks of a statement let through.
  - `construct_eq_build` / `constructEach_eq_buildEach`: a statement and the statements of a level,
    by induction over the statements of bodies.
  - `constructs_or_malformed`: a value gives its forest or its field or is malformed, and nothing
    else ever happens.
-/
import FieldForest.Proofs.Build.Acceptance
import FieldForest.Proofs.Forest.RoundTrip

namespace FieldForest

/-- Why a build that takes every step for itself gives no fields. -/
inductive Breakdown where
  /-- The declaration means none. -/
  | malformed (e : BuildError)
  | noArgument (index : Nat)
  | noMapping (v : Value)
  | noBody (v : Value)
  /-- The constructor refuses the parts of a field. -/
  | refused (faults : List Fault)

/-! ## Computations with other errors -/

namespace Traced

variable {ε ε' α β : Type} {e : ε → ε'}

/-- What follows on a computation has to be the same only for what that can give. -/
theorem mapError_bind_eq {x : Traced ε α} {f : α → Traced ε β} {g : α → Traced ε' β}
    (h : ∀ a, x.result = .ok a → g a = (f a).mapError e) : x.mapError e >>= g = (x >>= f).mapError e := by
  obtain ⟨events, result⟩ := x
  cases result with
  | error error => rfl
  | ok a =>
    show (Traced.mk events (.ok a)).bind g = ((Traced.mk events (.ok a)).bind f).mapError e
    simp only [Traced.bind, h a rfl]
    rfl

theorem result_mapError_cases (e : ε → ε') (x : Traced ε α) :
    (∃ a, (x.mapError e).result = .ok a) ∨ ∃ error, (x.mapError e).result = .error (e error) := by
  obtain ⟨events, result⟩ := x
  cases result with
  | error error => exact .inr ⟨error, rfl⟩
  | ok a => exact .inl ⟨a, rfl⟩

end Traced

/-! ## The build in steps -/

namespace Statement

/-- The argument with this number. -/
def argument (s : Statement) (index : Nat) : Traced Breakdown Value :=
  match s.args[index]? with
  | some v => pure v
  | none => Traced.fail (.noArgument index)

/-- The entries of a value that has to be a dictionary. -/
def entriesIn (v : Value) : Traced Breakdown (List (Value × Value)) :=
  match v.mapping? with
  | some entries => pure entries
  | none => Traced.fail (.noMapping v)

theorem sizeOf_lt_of_argument {s t : Statement} {index : Nat} {body : Declaration}
    (h : s.args[index]? = some (.nested body)) (ht : t ∈ body.statements) : sizeOf t < sizeOf s := by
  have hstatement := Declaration.sizeOf_lt_of_mem_statements ht
  have hargument := List.sizeOf_lt_of_mem (List.mem_of_getElem? h)
  obtain ⟨keyword, args⟩ := s
  simp only [Value.nested.sizeOf_spec, Statement.mk.sizeOf_spec] at hargument ⊢
  omega

/-- The statements of the argument with this number, which has to be a body. -/
def bodyIn (s : Statement) (index : Nat) : Traced Breakdown (List { t : Statement // sizeOf t < sizeOf s }) :=
  match h : s.args[index]? with
  | some (.nested body) => pure (body.statements.attach.map fun t => ⟨t.1, sizeOf_lt_of_argument h t.2⟩)
  | some v => Traced.fail (.noBody v)
  | none => Traced.fail (.noArgument index)

/-- The field that the constructor makes of these parts, the flag behind the options. -/
def make (id type : Value) (options : List (Text × Value)) (required : Bool) (fields : Option (List Field)) :
    Traced Breakdown Field :=
  (Traced.ofExcept (Field.ofParts (some id) (some type)
    (some (.dict (entriesOf (options ++ [(Field.flagKey, .bool required)]))))
    (Field.belowOf (fields.map fun fs => .list (fs.map .field))))).mapError .refused

/-- The fields of statements that are built one after the other, at a level where the names `seen`
    are taken. -/
def constructLevel (seen : List Text) : List (Statement × Traced Breakdown Field) → Traced Breakdown (List Field)
  | [] => return []
  | (s, built) :: rest => do
    let f ← built
    if f.id ∈ seen then Traced.fail (.malformed (.duplicate f.id s.item))
    else do
      let more ← constructLevel (f.id :: seen) rest
      return f :: more

/-- The field that a statement means, made step by step. -/
def construct (limit : Nesting.Limit) (depth : Nat) (s : Statement) : Traced Breakdown Field := do
  let keyword ← (Traced.ofExcept (Item.keywordAt limit depth s.keyword s.item)).mapError .malformed
  match Form.ofArgs? s.args with
  | none => Traced.fail (.malformed (.noForm s.item))
  | some form => do
    let name ← s.argument 0
    let type ← s.argument 1
    let (id, _) ← (Traced.ofExcept (Item.labels s.item name type)).mapError .malformed
    let f ← match form with
      | .bare => make name type [] (keyword = .requires) none
      | .options => do
        let given ← s.argument 2
        let entries ← entriesIn given
        let options ← (Item.settings s.item id (keyword = .requires) entries).mapError .malformed
        make name type options (keyword = .requires) none
      | .composite => do
        let statements ← s.bodyIn 2
        let fields ← constructLevel [] (statements.map fun t => (t.1, construct limit (depth + 1) t.1))
        if fields.isEmpty then Traced.fail (.malformed (.emptyBody s.item))
        else make name type [] (keyword = .requires) (some fields)
    Traced.report (.built f depth)
    return f
termination_by sizeOf s
decreasing_by exact t.2

/-! ## No step breaks down -/

section

variable {limit : Nesting.Limit}

theorem exists_bodyIn_eq_pure {s : Statement} {index : Nat} {body : Declaration}
    (h : s.args[index]? = some (.nested body)) :
    ∃ ts, s.bodyIn index = pure ts ∧ ts.map Subtype.val = body.statements := by
  unfold bodyIn
  split
  · rename_i other hother
    rw [h] at hother
    cases hother
    exact ⟨_, rfl, by simp⟩
  · rename_i v hv hother
    rw [h] at hother
    cases hother
    exact absurd rfl (hv body)
  · rename_i hother
    rw [h] at hother
    cases hother

/-- The constructor takes options that hold no declaration and that leave the flag to the build. -/
theorem make_eq_pure (id type : Text) {options : List (Text × Value)} (required : Bool) (fields : Option (List Field))
    (hkeys : ∀ o ∈ options, o.1 ≠ Field.flagKey) (hplain : ∀ o ∈ options, o.2.isDeclaration = false) :
    make (.text id) (.text type) options required fields =
      pure (.mk id type options required [] (fields.getD [])) := by
  have hbelow : Field.belowOf (fields.map fun fs => .list (fs.map .field)) = .ok (fields.getD []) := by
    cases fields with
    | none => rfl
    | some fs =>
      have hfields : Field.ofElements 0 (fs.map .field) = .ok fs := by
        rw [Field.ofElements_eq_ok_iff, List.forall₂_map_left_iff, List.forall₂_same]
        exact fun _ _ => rfl
      rw [Option.map_some, Field.belowOf, Field.ofSequence, hfields]
      rfl
  have hfield : Field.assemble id type (options ++ [(Field.flagKey, .bool required)]) (fields.getD []) =
      .ok (.mk id type options required [] (fields.getD [])) :=
    Field.assemble_eq_ok id type required (fields.getD []) hkeys (by rwa [List.append_nil])
  have hoptions : Field.optionsOf (some (.dict (entriesOf (options ++ [(Field.flagKey, .bool required)])))) =
      .ok (options ++ [(Field.flagKey, .bool required)]) := Field.optionsOfEntries_eq_ok _
  rw [make, Field.ofParts_eq_ok_iff.mpr ⟨id, type, _, _, rfl, rfl, hoptions, hbelow, hfield⟩]
  rfl

example : (make (.text "a") (.text "int") [("x", .item (.block []))] true none).result =
    .error (.refused [⟨[], .rule "Option 'x' of field 'a' holds a nested declaration"⟩]) := rfl

theorem constructLevel_eq_of {depth : Nat} {ss : List Statement} (seen : List Text)
    (h : ∀ t ∈ ss, construct limit depth t = (t.build limit depth).mapError .malformed) :
    constructLevel seen (ss.map fun t => (t, construct limit depth t)) =
      (buildEach limit depth seen ss).mapError .malformed := by
  induction ss generalizing seen with
  | nil => rfl
  | cons s ss ih =>
    obtain ⟨hs, hss⟩ := List.forall_mem_cons.mp h
    rw [List.map_cons, constructLevel, buildEach, hs]
    refine Traced.mapError_bind_eq fun f _ => ?_
    by_cases hseen : f.id ∈ seen
    · rw [if_pos hseen, if_pos hseen]
      rfl
    · rw [if_neg hseen, if_neg hseen, ih _ hss]
      exact Traced.mapError_bind_eq fun more _ => rfl

/-- A statement without options is built from its name, its type and the fields of its body. -/
theorem make_eq_complete {k : Keyword} {depth : Nat} {statement : Item} {name type : Value} {id ty : Text}
    (h : Item.labels statement name type = .ok (id, ty)) {options : List (Text × Value)}
    (hkeys : ∀ o ∈ options, o.1 ≠ Field.flagKey) (hplain : ∀ o ∈ options, o.2.isDeclaration = false)
    (fields : Option (List Field)) :
    (do
      let f ← make name type options (k = .requires) fields
      Traced.report (.built f depth)
      return f) =
      (Item.complete depth (.mk id ty options (k = .requires) [] (fields.getD []))).mapError .malformed := by
  obtain ⟨⟨rfl, -⟩, rfl, -⟩ := Item.labels_eq_ok_iff.mp h
  rw [make_eq_pure id ty _ fields hkeys hplain]
  rfl

/-- A statement is built in steps as it is built at once. -/
theorem construct_eq_build (s : Statement) (depth : Nat) :
    construct limit depth s = (s.build limit depth).mapError .malformed := by
  induction s using Statement.induction generalizing depth with
  | step s ih =>
    obtain ⟨keyword, args⟩ := s
    rcases form_cases args with h | ⟨a, b, rfl⟩ | ⟨a, b, c, entries, rfl, hc⟩ | ⟨a, b, body, rfl⟩
    · rw [construct, build_of_noForm h, h]
      exact Traced.mapError_bind_eq fun _ _ => rfl
    · rw [construct]
      refine Traced.mapError_bind_eq fun k _ => Traced.mapError_bind_eq fun p hp => ?_
      exact make_eq_complete hp (List.forall_mem_nil _) (List.forall_mem_nil _) none
    · have hform : Form.ofArgs? [a, b, c] = some .options := by cases c <;> first | rfl | cases hc
      rw [construct, build_of_options hc, hform]
      refine Traced.mapError_bind_eq fun k _ => Traced.mapError_bind_eq fun p hp => ?_
      obtain ⟨id, ty⟩ := p
      have hentries : entriesIn c = pure entries := by rw [entriesIn, hc]
      show (do
        let entries ← entriesIn c
        let options ← (Item.settings _ id (k = .requires) entries).mapError .malformed
        let f ← make a b options (k = .requires) none
        Traced.report (.built f depth)
        return f) = Traced.mapError .malformed _
      rw [hentries, pure_bind]
      refine Traced.mapError_bind_eq fun options hoptions => ?_
      obtain ⟨hall, rfl⟩ := Item.settings_eq_ok_iff.mp hoptions
      refine make_eq_complete hp (fun o ho => (mem_settingsOf ho).2) (fun o ho => ?_) none
      exact (hall _ (mem_settingsOf ho).1).2
    · rw [construct]
      refine Traced.mapError_bind_eq fun k _ => Traced.mapError_bind_eq fun p hp => ?_
      obtain ⟨id, ty⟩ := p
      have hlevel : constructLevel [] (body.statements.map fun t => (t, construct limit (depth + 1) t)) =
          (Item.bodyFields limit (depth + 1) body).mapError .malformed := by
        rw [Item.bodyFields_eq_buildEach]
        exact constructLevel_eq_of [] fun t ht => ih t ht (depth + 1)
      obtain ⟨ts, hbody, hts⟩ : ∃ ts, bodyIn ⟨keyword, [a, b, .nested body]⟩ 2 = pure ts ∧
          ts.map Subtype.val = body.statements := exists_bodyIn_eq_pure rfl
      have hstatements : (ts.map fun t => (t.1, construct limit (depth + 1) t.1)) =
          body.statements.map fun t => (t, construct limit (depth + 1) t) := by
        rw [← hts, List.map_map]
        rfl
      show (do
        let statements ← bodyIn ⟨keyword, [a, b, .nested body]⟩ 2
        let fields ← constructLevel [] (statements.map fun t => (t.1, construct limit (depth + 1) t.1))
        if fields.isEmpty then do
          let f ← Traced.fail (.malformed (.emptyBody (.statement keyword [a, b, .nested body])))
          Traced.report (.built f depth)
          return f
        else do
          let f ← make a b [] (k = .requires) (some fields)
          Traced.report (.built f depth)
          return f) = Traced.mapError .malformed _
      rw [hbody, pure_bind, hstatements, hlevel]
      refine Traced.mapError_bind_eq fun fields _ => ?_
      by_cases hempty : fields.isEmpty = true
      · rw [if_pos hempty, if_pos hempty]
        rfl
      · rw [if_neg hempty, if_neg hempty]
        exact make_eq_complete hp (List.forall_mem_nil _) (List.forall_mem_nil _) (some fields)

/-- The fields of statements, each built in steps. -/
def constructEach (limit : Nesting.Limit) (depth : Nat) (seen : List Text) (ss : List Statement) :
    Traced Breakdown (List Field) :=
  constructLevel seen (ss.map fun t => (t, construct limit depth t))

theorem constructEach_eq_buildEach (depth : Nat) (seen : List Text) (ss : List Statement) :
    constructEach limit depth seen ss = (buildEach limit depth seen ss).mapError .malformed :=
  constructLevel_eq_of seen fun t _ => construct_eq_build t depth

end

end Statement

/-! ## Values -/

namespace Item

/-- The statements that values yield which have to be items, and what is wrong with the first that
    is none. -/
def yielded : List Value → List Statement × Option BuildError
  | [] => ([], none)
  | .item i :: rest => (i.statements ++ (yielded rest).1, (yielded rest).2)
  | v :: _ => ([], some (.notItem v))

end Item

namespace Value

/-- The statements that a value yields, and what is wrong with it if it is no declaration. -/
def yielded : Value → List Statement × Option BuildError
  | .item i => (i.statements, Option.none)
  | .list xs => Item.yielded xs
  | .tuple xs => Item.yielded xs
  | v => ([], some (.notDeclaration v))

/-- What there is behind the statements: nothing, or what is wrong. -/
def behind {ε : Type} (fields : List Field) : Option ε → Traced ε (List Field)
  | some e => Traced.fail e
  | Option.none => return fields

/-- The forest that a value declares, built in steps. -/
def constructForest (limit : Nesting.Limit) (v : Value) : Traced Breakdown (List Field) := do
  let fields ← Statement.constructEach limit 1 [] v.yielded.1
  let forest ← (behind fields v.yielded.2).mapError .malformed
  Traced.report (.forestBuilt forest.length)
  return forest

/-- The field that a value means which is a statement, built in steps. -/
def constructField (limit : Nesting.Limit) : Value → Traced Breakdown Field
  | .item (.statement keyword args) => Statement.construct limit 1 ⟨keyword, args⟩
  | v => Traced.fail (.malformed (.notStatement v))

variable (limit : Nesting.Limit)

theorem buildValues_eq_yielded (seen : List Text) (xs : List Value) :
    Item.buildValues limit seen xs = (do
      let fields ← Statement.buildEach limit 1 seen (Item.yielded xs).1
      behind fields (Item.yielded xs).2) := by
  induction xs generalizing seen with
  | nil => rfl
  | cons x xs ih =>
    cases x with
    | item i =>
      have hjoin (fields more : List Field) :
          (do
            let more ← behind more (Item.yielded xs).2
            return fields ++ more) = behind (fields ++ more) (Item.yielded xs).2 := by
        cases (Item.yielded xs).2 <;> rfl
      simp only [Item.buildValues, Item.yielded, Item.build_eq_buildEach, Statement.buildEach_append, ih, bind_assoc,
        pure_bind, hjoin]
    | _ => rfl

theorem topFields_eq_yielded (v : Value) :
    v.topFields limit = (do
      let fields ← Statement.buildEach limit 1 [] v.yielded.1
      behind fields v.yielded.2) := by
  cases v with
  | item i =>
    rw [topFields, Item.build_eq_buildEach]
    exact (bind_pure _).symm
  | list xs | tuple xs => exact buildValues_eq_yielded limit [] xs
  | _ => rfl

theorem constructForest_eq_buildForest (v : Value) :
    v.constructForest limit = (v.buildForest limit).mapError .malformed := by
  rw [constructForest, buildForest, topFields_eq_yielded, Statement.constructEach_eq_buildEach, bind_assoc]
  refine Traced.mapError_bind_eq fun fields _ => ?_
  exact Traced.mapError_bind_eq fun forest _ => rfl

theorem constructField_eq_buildField (v : Value) :
    v.constructField limit = (v.buildField limit).mapError .malformed := by
  cases v with
  | item i =>
    cases i with
    | statement keyword args => exact Statement.construct_eq_build ⟨keyword, args⟩ 1
    | block items => rfl
  | _ => rfl

/-- Built step by step, a value gives the same as built at once: its forest or its field, or it is
    malformed. No argument is out of reach, and the constructor refuses no field. -/
theorem constructs_or_malformed (v : Value) :
    v.constructForest limit = (v.buildForest limit).mapError .malformed ∧
      v.constructField limit = (v.buildField limit).mapError .malformed ∧
      ((∃ forest, (v.constructForest limit).result = .ok forest) ∨
        ∃ e, (v.constructForest limit).result = .error (.malformed e)) ∧
      ((∃ f, (v.constructField limit).result = .ok f) ∨
        ∃ e, (v.constructField limit).result = .error (.malformed e)) := by
  rw [constructForest_eq_buildForest, constructField_eq_buildField]
  exact ⟨rfl, rfl, Traced.result_mapError_cases _ _, Traced.result_mapError_cases _ _⟩

end Value

end FieldForest
