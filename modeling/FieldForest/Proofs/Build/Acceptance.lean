/-
  FieldForest.Proofs.Build.Acceptance — which declarations build, and into which forest.

  A statement is sound at a depth if it stands no deeper than the limit, has a known keyword, a
  name and a type that are not empty, and either nothing more, options whose names are strings
  and which hold no declarations, or a body: at least one statement, each sound one level
  further down, with names that differ. The field it means takes all of its parts from it.

  Proved:
  - `settings_eq_ok_iff` / `keywordAt_eq_ok_iff` / `labels_eq_ok_iff`: what each check of a
    statement accepts and gives.
  - `build_eq_ok_iff` / `buildEach_eq_ok_iff`: a statement, and the statements of a level, build
    exactly if they are sound, and then into the fields they mean.
  - `builds_iff_wellFormed_and_meaning`: so does a value, which has to be a declaration; its
    forest is the image of its statements in their order.
-/
import FieldForest.Proofs.Build.Statements

namespace FieldForest

/-- The entries of a dictionary. -/
def Value.mapping? : Value → Option (List (Value × Value))
  | .dict entries => some entries
  | .fixed entries => some entries
  | _ => Option.none

/-- The text that a value is; what is no text counts as the empty one. -/
def Value.label : Value → Text
  | .text t => t
  | _ => []

/-- An entry that can be an option: its name is a string and its value is no declaration. -/
def IsOption (entry : Value × Value) : Prop :=
  (∃ key, entry.1 = .text key) ∧ entry.2.isDeclaration = false

/-- The options that entries give in order, those of the flag's name left out. -/
def settingsOf : List (Value × Value) → List (Text × Value)
  | [] => []
  | (.text key, v) :: rest => if key = Field.flagKey then settingsOf rest else (key, v) :: settingsOf rest
  | _ :: rest => settingsOf rest

/-- Options as the entries of a dictionary. -/
def entriesOf (options : List (Text × Value)) : List (Value × Value) := options.map fun o => (.text o.1, o.2)

theorem mem_settingsOf {entries : List (Value × Value)} {o : Text × Value} (h : o ∈ settingsOf entries) :
    (.text o.1, o.2) ∈ entries ∧ o.1 ≠ Field.flagKey := by
  fun_induction settingsOf entries with
  | case1 => cases h
  | case2 v rest ih => exact ⟨List.mem_cons_of_mem _ (ih h).1, (ih h).2⟩
  | case3 key v rest hk ih =>
    rcases List.mem_cons.mp h with rfl | h
    · exact ⟨List.mem_cons_self, hk⟩
    · exact ⟨List.mem_cons_of_mem _ (ih h).1, (ih h).2⟩
  | case4 e rest he ih => exact ⟨List.mem_cons_of_mem _ (ih h).1, (ih h).2⟩

theorem settingsOf_entriesOf {options : List (Text × Value)} (h : ∀ o ∈ options, o.1 ≠ Field.flagKey) :
    settingsOf (entriesOf options) = options := by
  induction options with
  | nil => rfl
  | cons o rest ih =>
    rw [List.forall_mem_cons] at h
    simp only [entriesOf, List.map_cons, settingsOf, if_neg h.1]
    rw [← entriesOf, ih h.2]

namespace Statement

def name : Statement → Text
  | ⟨_, name :: _⟩ => name.label
  | _ => []

def type : Statement → Text
  | ⟨_, _ :: type :: _⟩ => type.label
  | _ => []

/-- The keyword alone decides. -/
def required (s : Statement) : Bool := s.keyword = Keyword.requires.name

/-- The options other than the flag. -/
def settings : Statement → List (Text × Value)
  | ⟨_, [_, _, options]⟩ => settingsOf (options.mapping?.getD [])
  | _ => []

/-- The field that a statement means: its options with the flag behind them, and the fields that
    the statements of its body mean. -/
def field (s : Statement) : Field :=
  .mk s.name s.type s.settings s.required [] (s.body.attach.map fun ⟨t, _⟩ => t.field)
termination_by sizeOf s
decreasing_by exact sizeOf_lt_of_mem_body ‹_›

theorem field_eq (s : Statement) :
    s.field = .mk s.name s.type s.settings s.required [] (s.body.map field) := by
  rw [field]
  simp

@[simp] theorem id_field (s : Statement) : s.field.id = s.name := by rw [field_eq]; rfl

theorem field_bare (k : Keyword) (id ty : Text) :
    field ⟨k.name, [.text id, .text ty]⟩ = .mk id ty [] (k = .requires) [] [] := by
  rw [field_eq]
  cases k <;> rfl

theorem field_options (k : Keyword) (id ty : Text) {c : Value} {entries : List (Value × Value)}
    (hc : c.mapping? = some entries) :
    field ⟨k.name, [.text id, .text ty, c]⟩ = .mk id ty (settingsOf entries) (k = .requires) [] [] := by
  have hbody : body ⟨k.name, [.text id, .text ty, c]⟩ = [] := by cases c <;> first | rfl | cases hc
  rw [field_eq, hbody, settings, hc]
  cases k <;> rfl

theorem field_composite (k : Keyword) (id ty : Text) (body : Declaration) :
    field ⟨k.name, [.text id, .text ty, .nested body]⟩ =
      .mk id ty [] (k = .requires) [] (body.statements.map field) := by
  rw [field_eq]
  cases k <;> rfl

/-- A statement that is sound at a depth, none being sound below the limit. -/
inductive Sound (limit : Nesting.Limit) : Nat → Statement → Prop
  | bare {depth : Nat} {keyword : Keyword} {name type : Text} :
      depth ≤ limit.depth → name ≠ [] → type ≠ [] →
      Sound limit depth ⟨keyword.name, [.text name, .text type]⟩
  | options {depth : Nat} {keyword : Keyword} {name type : Text} {options : Value}
      {entries : List (Value × Value)} :
      depth ≤ limit.depth → name ≠ [] → type ≠ [] →
      options.mapping? = some entries → (∀ e ∈ entries, IsOption e) →
      Sound limit depth ⟨keyword.name, [.text name, .text type, options]⟩
  | composite {depth : Nat} {keyword : Keyword} {name type : Text} {body : Declaration} :
      depth ≤ limit.depth → name ≠ [] → type ≠ [] →
      body.statements ≠ [] → (∀ s ∈ body.statements, Sound limit (depth + 1) s) →
      (body.statements.map Statement.name).Nodup →
      Sound limit depth ⟨keyword.name, [.text name, .text type, .nested body]⟩

end Statement

/-! ## The checks of a statement -/

theorem Keyword.ofText?_eq_some_iff {t : Text} {k : Keyword} : ofText? t = some k ↔ t = k.name := by
  have hne : optional.name ≠ requires.name := by decide
  unfold ofText?
  cases k <;> by_cases h : t = requires.name <;> by_cases h' : t = optional.name <;> simp_all

namespace Item

variable {limit : Nesting.Limit} {depth : Nat} {statement : Item}

theorem keywordAt_eq_ok_iff {keyword : Text} {k : Keyword} :
    keywordAt limit depth keyword statement = .ok k ↔ depth ≤ limit.depth ∧ keyword = k.name := by
  rw [← Keyword.ofText?_eq_some_iff]
  unfold keywordAt
  split
  · simp; omega
  · cases h : Keyword.ofText? keyword with
    | none => simp
    | some k' => simp; omega

theorem label?_eq_some_iff {v : Value} {t : Text} : label? v = some t ↔ v = .text t ∧ t ≠ [] := by
  cases v with
  | text u => cases u <;> simp [label?]; grind
  | _ => simp [label?]

theorem labels_eq_ok_iff {name type : Value} {id ty : Text} :
    labels statement name type = .ok (id, ty) ↔ (name = .text id ∧ id ≠ []) ∧ type = .text ty ∧ ty ≠ [] := by
  rw [← label?_eq_some_iff, ← label?_eq_some_iff]
  unfold labels
  cases label? name <;> cases label? type <;> simp

theorem settings_eq_ok_iff {id : Text} {required : Bool} {entries : List (Value × Value)}
    {options : List (Text × Value)} :
    (settings statement id required entries).result = .ok options ↔
      (∀ e ∈ entries, IsOption e) ∧ options = settingsOf entries := by
  induction entries generalizing options with
  | nil => simp [settings, settingsOf, eq_comm]
  | cons e rest ih =>
    obtain ⟨key, v⟩ := e
    cases key with
    | text key =>
      by_cases hd : v.isDeclaration = true
      · simp [settings, hd, IsOption]
      have hopt : (∀ e ∈ (.text key, v) :: rest, IsOption e) ↔ ∀ e ∈ rest, IsOption e := by
        rw [List.forall_mem_cons]
        exact and_iff_right ⟨⟨key, rfl⟩, by simpa using hd⟩
      rw [hopt]
      by_cases hk : key = Field.flagKey
      · have hreport : (settings statement id required ((.text key, v) :: rest)).result =
            (settings statement id required rest).result := by
          simp only [settings, hd, hk, if_true, Bool.false_eq_true, if_false]
          split <;> rfl
        rw [hreport, ih, settingsOf, if_pos hk]
      · have hkeep : (settings statement id required ((.text key, v) :: rest)).result = .ok options ↔
            ∃ more, (settings statement id required rest).result = .ok more ∧ (key, v) :: more = options := by
          simp only [settings, hd, hk, Bool.false_eq_true, if_false, Traced.result_bind_eq_ok, Traced.result_pure,
            Except.ok.injEq]
        rw [hkeep, settingsOf, if_neg hk]
        constructor
        · rintro ⟨more, hm, rfl⟩
          obtain ⟨hall, rfl⟩ := ih.mp hm
          exact ⟨hall, rfl⟩
        · rintro ⟨hall, rfl⟩
          exact ⟨_, ih.mpr ⟨hall, rfl⟩, rfl⟩
    | _ => simp [settings, IsOption]

end Item

/-! ## A statement -/

namespace Statement

variable {limit : Nesting.Limit} {depth : Nat} {keyword : Text} {a b : Value} {f : Field}

theorem build_bare_eq_ok_iff :
    (build limit depth ⟨keyword, [a, b]⟩).result = .ok f ↔
      ∃ (k : Keyword) (id ty : Text), depth ≤ limit.depth ∧ keyword = k.name ∧ (a = .text id ∧ id ≠ []) ∧
        (b = .text ty ∧ ty ≠ []) ∧ f = .mk id ty [] (k = .requires) [] [] := by
  simp only [build, Item.fieldOf, Traced.result_bind_eq_ok, Traced.result_ofExcept, Item.keywordAt_eq_ok_iff,
    Prod.exists, Item.labels_eq_ok_iff, Item.complete, Traced.result_report_bind, Traced.result_pure, Except.ok.injEq]
  grind

theorem build_of_options {c : Value} {entries : List (Value × Value)} (hc : c.mapping? = some entries) :
    build limit depth ⟨keyword, [a, b, c]⟩ =
      Item.withOptions limit depth keyword (.statement keyword [a, b, c]) a b entries := by
  cases c with
  | dict es | fixed es => cases hc; rfl
  | _ => cases hc

theorem build_options_eq_ok_iff {c : Value} {entries : List (Value × Value)} (hc : c.mapping? = some entries) :
    (build limit depth ⟨keyword, [a, b, c]⟩).result = .ok f ↔
      ∃ (k : Keyword) (id ty : Text), depth ≤ limit.depth ∧ keyword = k.name ∧ (a = .text id ∧ id ≠ []) ∧
        (b = .text ty ∧ ty ≠ []) ∧ (∀ e ∈ entries, IsOption e) ∧
        f = .mk id ty (settingsOf entries) (k = .requires) [] [] := by
  rw [build_of_options hc]
  simp only [Item.withOptions, Traced.result_bind_eq_ok, Traced.result_ofExcept, Item.keywordAt_eq_ok_iff,
    Prod.exists, Item.labels_eq_ok_iff, Item.settings_eq_ok_iff, Item.complete, Traced.result_report_bind,
    Traced.result_pure, Except.ok.injEq]
  grind

theorem build_composite_eq_ok_iff {body : Declaration} :
    (build limit depth ⟨keyword, [a, b, .nested body]⟩).result = .ok f ↔
      ∃ (k : Keyword) (id ty : Text) (fields : List Field), depth ≤ limit.depth ∧ keyword = k.name ∧
        (a = .text id ∧ id ≠ []) ∧ (b = .text ty ∧ ty ≠ []) ∧
        (buildEach limit (depth + 1) [] body.statements).result = .ok fields ∧ fields ≠ [] ∧
        f = .mk id ty [] (k = .requires) [] fields := by
  have hrest (k : Keyword) (id ty : Text) (fields : List Field) :
      (if fields.isEmpty then Traced.fail (.emptyBody (.statement keyword [a, b, .nested body]))
        else Item.complete depth (.mk id ty [] (k = .requires) [] fields)).result = .ok f ↔
        fields ≠ [] ∧ f = .mk id ty [] (k = .requires) [] fields := by
    cases fields <;> simp [Item.complete, Except.map, eq_comm]
  simp only [build, Item.fieldOf, Traced.result_bind_eq_ok, Traced.result_ofExcept, Item.keywordAt_eq_ok_iff,
    Prod.exists, Item.labels_eq_ok_iff, Item.bodyFields_eq_buildEach, hrest]
  grind

/-- Arguments of no form are found so behind the keyword. -/
theorem build_of_noForm {args : List Value} (h : Form.ofArgs? args = none) :
    build limit depth ⟨keyword, args⟩ = (do
      let _ ← Traced.ofExcept (Item.keywordAt limit depth keyword (.statement keyword args))
      Traced.fail (.noForm (.statement keyword args))) := by
  unfold build Item.fieldOf
  unfold Form.ofArgs? at h
  split at h
  · cases h
  · cases h
  · cases h
  · cases h
  · rfl

/-- Arguments of no form build nothing. -/
theorem build_noForm {s : Statement} (h : Form.ofArgs? s.args = none) :
    (s.build limit depth).result ≠ .ok f := by
  obtain ⟨keyword, args⟩ := s
  rw [build_of_noForm h, ne_eq, Traced.result_bind_eq_ok]
  simp

/-- The statements of a level build if each does and their names differ, among themselves and
    from those that are taken. -/
theorem buildEach_eq_ok_iff_of {ss : List Statement} (seen : List Text) (fields : List Field)
    (hs : ∀ s ∈ ss, ∀ f, (s.build limit depth).result = .ok f ↔ s.Sound limit depth ∧ f = s.field) :
    (buildEach limit depth seen ss).result = .ok fields ↔
      (∀ s ∈ ss, s.Sound limit depth) ∧ (∀ s ∈ ss, s.name ∉ seen) ∧ (ss.map name).Nodup ∧
        fields = ss.map field := by
  induction ss generalizing seen fields with
  | nil => simp [buildEach, eq_comm]
  | cons s ss ih =>
    have hbuild : (buildEach limit depth seen (s :: ss)).result = .ok fields ↔
        s.Sound limit depth ∧ s.name ∉ seen ∧
          ∃ more, (buildEach limit depth (s.name :: seen) ss).result = .ok more ∧ s.field :: more = fields := by
      simp only [buildEach, Traced.result_bind_eq_ok, hs s List.mem_cons_self]
      constructor
      · rintro ⟨f, ⟨hf, rfl⟩, hr⟩
        rw [id_field] at hr
        split at hr
        · cases hr
        · obtain ⟨more, hm, he⟩ := Traced.result_bind_eq_ok.mp hr
          exact ⟨hf, ‹_›, more, hm, by simpa using he⟩
      · rintro ⟨hf, hn, more, hm, rfl⟩
        refine ⟨s.field, ⟨hf, rfl⟩, ?_⟩
        rw [id_field, if_neg hn, Traced.result_bind_eq_ok]
        exact ⟨more, hm, rfl⟩
    rw [hbuild]
    simp only [ih (s.name :: seen) _ fun t ht => hs t (List.mem_cons_of_mem _ ht)]
    simp only [List.map_cons, List.nodup_cons, List.mem_map, List.mem_cons, not_or]
    grind

/-- The forms of arguments. -/
theorem form_cases (args : List Value) :
    Form.ofArgs? args = none ∨ (∃ a b, args = [a, b]) ∨
      (∃ a b c entries, args = [a, b, c] ∧ c.mapping? = some entries) ∨ ∃ a b body, args = [a, b, .nested body] := by
  unfold Form.ofArgs?
  split
  · exact .inr (.inl ⟨_, _, rfl⟩)
  · exact .inr (.inr (.inl ⟨_, _, _, _, rfl, rfl⟩))
  · exact .inr (.inr (.inl ⟨_, _, _, _, rfl, rfl⟩))
  · exact .inr (.inr (.inr ⟨_, _, _, rfl⟩))
  · exact .inl rfl

theorem Sound.form_ne_none {s : Statement} (h : s.Sound limit depth) : Form.ofArgs? s.args ≠ none := by
  cases h with
  | bare => simp [Form.ofArgs?]
  | @options _ _ _ _ options _ _ _ _ hm => cases options <;> simp_all [Value.mapping?, Form.ofArgs?]
  | composite => simp [Form.ofArgs?]

/-- A statement builds exactly if it is sound, and then into the field that it means. -/
theorem build_eq_ok_iff (s : Statement) (depth : Nat) (f : Field) :
    (s.build limit depth).result = .ok f ↔ s.Sound limit depth ∧ f = s.field := by
  induction s using Statement.induction generalizing depth f with
  | step s ih =>
    obtain ⟨keyword, args⟩ := s
    rcases form_cases args with h | ⟨a, b, rfl⟩ | ⟨a, b, c, entries, rfl, hc⟩ | ⟨a, b, body, rfl⟩
    · exact iff_of_false (build_noForm h) fun hs => hs.1.form_ne_none h
    · rw [build_bare_eq_ok_iff]
      constructor
      · rintro ⟨k, id, ty, hd, rfl, ⟨rfl, hid⟩, ⟨rfl, hty⟩, rfl⟩
        exact ⟨.bare hd hid hty, (field_bare k id ty).symm⟩
      · rintro ⟨h, rfl⟩
        cases h with
        | @bare _ k id ty hd hid hty => exact ⟨k, id, ty, hd, rfl, ⟨rfl, hid⟩, ⟨rfl, hty⟩, field_bare k id ty⟩
    · rw [build_options_eq_ok_iff hc]
      constructor
      · rintro ⟨k, id, ty, hd, rfl, ⟨rfl, hid⟩, ⟨rfl, hty⟩, he, rfl⟩
        exact ⟨.options hd hid hty hc he, (field_options k id ty hc).symm⟩
      · rintro ⟨h, rfl⟩
        cases h with
        | @options _ k id ty _ es hd hid hty hc' he =>
          cases hc.symm.trans hc'
          exact ⟨k, id, ty, hd, rfl, ⟨rfl, hid⟩, ⟨rfl, hty⟩, he, field_options k id ty hc⟩
        | composite => cases hc
    · have hlevel fields := buildEach_eq_ok_iff_of [] fields fun t ht => ih t ht (depth + 1)
      rw [build_composite_eq_ok_iff]
      constructor
      · rintro ⟨k, id, ty, fields, hd, rfl, ⟨rfl, hid⟩, ⟨rfl, hty⟩, hb, hne, rfl⟩
        obtain ⟨hs, -, hn, rfl⟩ := (hlevel fields).mp hb
        exact ⟨.composite hd hid hty (mt List.map_eq_nil_iff.mpr hne) hs hn, (field_composite k id ty body).symm⟩
      · rintro ⟨h, rfl⟩
        cases h with
        | options _ _ _ hc => cases hc
        | @composite _ k id ty _ hd hid hty hne hs hn =>
          exact ⟨k, id, ty, _, hd, rfl, ⟨rfl, hid⟩, ⟨rfl, hty⟩, (hlevel _).mpr ⟨hs, by simp, hn, rfl⟩,
            mt List.map_eq_nil_iff.mp hne, field_composite k id ty body⟩

theorem buildEach_eq_ok_iff (ss : List Statement) (seen : List Text) (fields : List Field) :
    (buildEach limit depth seen ss).result = .ok fields ↔
      (∀ s ∈ ss, s.Sound limit depth) ∧ (∀ s ∈ ss, s.name ∉ seen) ∧ (ss.map name).Nodup ∧
        fields = ss.map field :=
  buildEach_eq_ok_iff_of seen fields fun s _ => build_eq_ok_iff s depth

end Statement

/-! ## A declaration -/

namespace Value

variable (limit : Nesting.Limit) (v : Value) (forest : List Field)

/-- A declaration whose statements are sound, each at the depth where it stands, and whose names
    differ at every level. -/
def WellFormed : Prop :=
  ∃ ss, v.statements? = some ss ∧ (∀ s ∈ ss, s.Sound limit 1) ∧ (ss.map Statement.name).Nodup

/-- The fields that the statements of a declaration mean, in their order. -/
def meaning : List Field := (v.statements?.getD []).map Statement.field

/-- The forest of a value, told by its statements. -/
theorem builds_iff_statements :
    (v.buildForest limit).result = .ok forest ↔
      ∃ ss, v.statements? = some ss ∧ (∀ s ∈ ss, s.Sound limit 1) ∧ (ss.map Statement.name).Nodup ∧
        forest = ss.map Statement.field := by
  rw [buildForest_eq_ok_iff]
  simp [Statement.buildEach_eq_ok_iff]

/-- A value builds exactly if it is a well-formed declaration, and then into what it means. -/
theorem builds_iff_wellFormed_and_meaning :
    (v.buildForest limit).result = .ok forest ↔ v.WellFormed limit ∧ forest = v.meaning := by
  rw [builds_iff_statements]
  constructor
  · rintro ⟨ss, hss, hs, hn, rfl⟩
    exact ⟨⟨ss, hss, hs, hn⟩, by simp [meaning, hss]⟩
  · rintro ⟨⟨ss, hss, hs, hn⟩, rfl⟩
    exact ⟨ss, hss, hs, hn, by simp [meaning, hss]⟩

end Value

end FieldForest
