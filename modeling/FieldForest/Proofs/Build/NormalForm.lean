/-
  FieldForest.Proofs.Build.NormalForm — when two declarations mean the same forest.

  Two rewrites at every level give the normal form of a declaration. Blocks are unwrapped in
  place and the statements stand in a list, be they one or many, in a list or a tuple. Options
  are a dictionary without the flag, be they none, or entries that can be changed or not.

  Proved:
  - `field_ungrouped` / `sound_ungrouped_iff`: unwrapping blocks changes neither what a statement
    means nor whether it is sound.
  - `field_normal`: a statement and its normal form mean the same field.
  - `Sound.normal_eq`: the normal form of a sound statement is the one that the field it means
    declares.
  - `same_forest_iff_same_normal`: declarations that build give the same forest exactly if their
    normal forms are the same, and grouping statements otherwise gives the same forest again.
-/
import FieldForest.Proofs.Build.Image

namespace FieldForest

/-! ## Rewrites -/

/-- Entries that do not have the flag's name. -/
def withoutFlag (entries : List (Value × Value)) : List (Value × Value) :=
  entries.filter fun
    | (.text key, _) => key ≠ Field.flagKey
    | _ => true

/-- Options of a statement as a dictionary without the flag. -/
def plainOptions : List Value → List Value
  | [name, type] => [name, type, .dict []]
  | [name, type, .dict entries] => [name, type, .dict (withoutFlag entries)]
  | [name, type, .fixed entries] => [name, type, .dict (withoutFlag entries)]
  | args => args

namespace Statement

/-- A body replaced by the sequence of statements `ts`. -/
def withBody (ts : List Statement) : List Value → List Value
  | [name, type, .nested _] => [name, type, .nested (.sequence (ts.map item))]
  | args => args

/-- Bodies made sequences of their statements at every level, and arguments rewritten. -/
def atEveryLevel (rewrite : List Value → List Value) (s : Statement) : Statement :=
  ⟨s.keyword, rewrite (withBody (s.body.attach.map fun ⟨t, _⟩ => t.atEveryLevel rewrite) s.args)⟩
termination_by sizeOf s
decreasing_by exact sizeOf_lt_of_mem_body ‹_›

theorem atEveryLevel_eq (rewrite : List Value → List Value) (s : Statement) :
    s.atEveryLevel rewrite = ⟨s.keyword, rewrite (withBody (s.body.map (atEveryLevel rewrite)) s.args)⟩ := by
  rw [atEveryLevel]
  simp

/-- The statement with blocks unwrapped in its body and below. -/
def ungrouped (s : Statement) : Statement := s.atEveryLevel fun args => args

/-- The normal form of a statement. -/
def normal (s : Statement) : Statement := s.atEveryLevel plainOptions

end Statement

namespace Value

/-- A declaration as the sequence of its statements, each rewritten; other values as they are. -/
def mapStatements (f : Statement → Statement) (v : Value) : Value :=
  match v.statements? with
  | some ss => ofStatements (ss.map f)
  | Option.none => v

def ungrouped (v : Value) : Value := v.mapStatements Statement.ungrouped

def normal (v : Value) : Value := v.mapStatements Statement.normal

end Value

/-! ## What rewrites keep -/

theorem settingsOf_withoutFlag (entries : List (Value × Value)) :
    settingsOf (withoutFlag entries) = settingsOf entries := by
  induction entries with
  | nil => rfl
  | cons e rest ih =>
    obtain ⟨key, v⟩ := e
    cases key with
    | text key => by_cases hk : key = Field.flagKey <;> simpa [withoutFlag, settingsOf, hk] using ih
    | _ => simpa [withoutFlag, settingsOf] using ih

/-- Entries that can be options are those of the options they give, but for the flag's name. -/
theorem entriesOf_settingsOf {entries : List (Value × Value)} (h : ∀ e ∈ entries, IsOption e) :
    entriesOf (settingsOf entries) = withoutFlag entries := by
  induction entries with
  | nil => rfl
  | cons e rest ih =>
    obtain ⟨key, v⟩ := e
    obtain ⟨⟨⟨key, rfl⟩, -⟩, hrest⟩ := List.forall_mem_cons.mp h
    by_cases hk : key = Field.flagKey
    · simpa [withoutFlag, settingsOf, hk] using ih hrest
    · simpa [withoutFlag, settingsOf, entriesOf, hk] using ih hrest

namespace Statement

variable {keyword : Text} {args : List Value} {limit : Nesting.Limit} {depth : Nat}

theorem field_plainOptions (keyword : Text) (args : List Value) :
    field ⟨keyword, plainOptions args⟩ = field ⟨keyword, args⟩ := by
  rw [field_eq, field_eq]
  unfold plainOptions
  split
  · rfl
  · simp only [settings, Value.mapping?, Option.getD_some, settingsOf_withoutFlag]
    rfl
  · simp only [settings, Value.mapping?, Option.getD_some, settingsOf_withoutFlag]
    rfl
  · rfl

/-- A body can be replaced by statements that mean the same fields. -/
theorem field_withBody {ts : List Statement} (h : ts.map field = (body ⟨keyword, args⟩).map field) :
    field ⟨keyword, withBody ts args⟩ = field ⟨keyword, args⟩ := by
  rw [field_eq ⟨keyword, args⟩, ← h, field_eq]
  unfold withBody
  split
  · simp only [body, Declaration.statements, Declaration.items, allStatements_map_item]
    rfl
  · rw [h]

/-- Rewriting at every level keeps the meaning if it does at one. -/
theorem field_atEveryLevel {rewrite : List Value → List Value}
    (h : ∀ keyword args, field ⟨keyword, rewrite args⟩ = field ⟨keyword, args⟩) (s : Statement) :
    (s.atEveryLevel rewrite).field = s.field := by
  induction s using Statement.induction with
  | step s ih =>
    have hbelow : (s.body.map (atEveryLevel rewrite)).map field = s.body.map field := by
      rw [List.map_map]
      exact List.map_congr_left ih
    rw [atEveryLevel_eq, h, field_withBody hbelow]

theorem field_ungrouped (s : Statement) : s.ungrouped.field = s.field := field_atEveryLevel (fun _ _ => rfl) s

/-- A statement and its normal form mean the same field. -/
theorem field_normal (s : Statement) : s.normal.field = s.field := field_atEveryLevel field_plainOptions s

theorem name_ungrouped (s : Statement) : s.ungrouped.name = s.name := by
  rw [← id_field, field_ungrouped, id_field]

/-- A body can be replaced by statements of the same names that are sound where those of the
    body are. -/
theorem sound_withBody_iff {ts : List Statement} (hn : ts.map name = (body ⟨keyword, args⟩).map name)
    (hs : (∀ t ∈ ts, t.Sound limit (depth + 1)) ↔ ∀ t ∈ body ⟨keyword, args⟩, t.Sound limit (depth + 1)) :
    Sound limit depth ⟨keyword, withBody ts args⟩ ↔ Sound limit depth ⟨keyword, args⟩ := by
  unfold withBody
  split
  · rename_i b
    have hts : (Declaration.sequence (ts.map item)).statements = ts := allStatements_map_item ts
    have hempty : ts = [] ↔ b.statements = [] := by
      rw [← List.map_eq_nil_iff (f := name), hn, List.map_eq_nil_iff]
      rfl
    constructor
    · intro h
      cases h with
      | options _ _ _ hc => cases hc
      | composite hd hid hty hne hall hnames =>
        rw [hts] at hne hall hnames
        exact .composite hd hid hty (mt hempty.mpr hne) (hs.mp hall) (hn ▸ hnames)
    · intro h
      cases h with
      | options _ _ _ hc => cases hc
      | composite hd hid hty hne hall hnames =>
        refine .composite hd hid hty ?_ ?_ ?_
        · rw [hts]
          exact mt hempty.mp hne
        · rw [hts]
          exact hs.mpr hall
        · rw [hts, hn]
          exact hnames
  · exact Iff.rfl

/-- Unwrapping blocks makes nothing sound that was not, and the other way round. -/
theorem sound_ungrouped_iff (s : Statement) (depth : Nat) :
    s.ungrouped.Sound limit depth ↔ s.Sound limit depth := by
  induction s using Statement.induction generalizing depth with
  | step s ih =>
    have hnames : (s.body.map ungrouped).map name = s.body.map name := by
      rw [List.map_map]
      exact List.map_congr_left fun t _ => name_ungrouped t
    have hsound : (∀ t ∈ s.body.map ungrouped, t.Sound limit (depth + 1)) ↔
        ∀ t ∈ s.body, t.Sound limit (depth + 1) := by
      rw [List.forall_mem_map]
      exact forall₂_congr fun t ht => ih t ht (depth + 1)
    rw [ungrouped, atEveryLevel_eq]
    exact sound_withBody_iff hnames hsound

/-- The normal form of a sound statement is the one that its field declares. -/
theorem Sound.normal_eq {s : Statement} (h : s.Sound limit depth) : s.normal = s.field.declaration := by
  have hkeyword (k : Keyword) : Keyword.ofFlag (k = .requires) = k := by cases k <;> rfl
  induction h with
  | bare hd hid hty =>
    rw [field_bare, normal, atEveryLevel_eq, Field.declaration, hkeyword]
    rfl
  | @options depth k id ty c entries hd hid hty hc he =>
    rw [field_options _ _ _ hc, normal, atEveryLevel_eq, Field.declaration, hkeyword, entriesOf_settingsOf he]
    cases c with
    | dict es | fixed es => cases hc; rfl
    | _ => cases hc
  | @composite depth k id ty b hd hid hty hne hs hn ih =>
    have hbelow : b.statements.map normal = (b.statements.map field).map Field.declaration := by
      rw [List.map_map]
      exact List.map_congr_left ih
    rw [field_composite, Field.declaration_composite (mt List.map_eq_nil_iff.mp hne), ← hbelow, hkeyword, normal,
      atEveryLevel_eq]
    rfl

end Statement

/-! ## Declarations -/

namespace Value

variable {limit limit₁ limit₂ : Nesting.Limit} {v w : Value} {forest f₁ f₂ : List Field}

theorem mapStatements_of_statements? {ss : List Statement} (h : v.statements? = some ss) (f : Statement → Statement) :
    v.mapStatements f = ofStatements (ss.map f) := by
  rw [mapStatements, h]

/-- The normal form of what builds is what its forest declares. -/
theorem normal_eq_declaring (h : (v.buildForest limit).result = .ok forest) : v.normal = declaring forest := by
  obtain ⟨ss, hss, hs, -, rfl⟩ := (builds_iff_statements limit v forest).mp h
  rw [normal, mapStatements_of_statements? hss, declaring, List.map_map]
  exact congrArg ofStatements (List.map_congr_left fun s hsm => (hs s hsm).normal_eq)

/-- The normal form of what builds means its forest. -/
theorem meaning_normal (h : (v.buildForest limit).result = .ok forest) : v.normal.meaning = forest := by
  obtain ⟨ss, hss, -, -, rfl⟩ := (builds_iff_statements limit v forest).mp h
  rw [normal, mapStatements_of_statements? hss, meaning, statements?_ofStatements, Option.getD_some, List.map_map]
  exact List.map_congr_left fun s _ => s.field_normal

/-- What rewrites to a declaration is one. -/
theorem statements?_of_mapStatements_eq {f : Statement → Statement} {ss : List Statement}
    (h : v.mapStatements f = ofStatements ss) : ∃ ts, v.statements? = some ts ∧ ts.map f = ss := by
  cases hts : v.statements? with
  | none =>
    -- then nothing was rewritten, and a sequence of statements is a declaration
    have hv : v = ofStatements ss := by rwa [mapStatements, hts] at h
    rw [hv, statements?_ofStatements] at hts
    cases hts
  | some ts =>
    rw [mapStatements_of_statements? hts] at h
    exact ⟨ts, rfl, ofStatements_inj.mp h⟩

/-- Grouping statements otherwise gives the same forest. -/
theorem builds_of_ungrouped_eq (h : (v.buildForest limit).result = .ok forest) (hw : w.ungrouped = v.ungrouped) :
    (w.buildForest limit).result = .ok forest := by
  obtain ⟨ss, hss, hs, hn, rfl⟩ := (builds_iff_statements limit v forest).mp h
  rw [ungrouped, ungrouped, mapStatements_of_statements? hss] at hw
  obtain ⟨ts, hts, hsame⟩ := statements?_of_mapStatements_eq hw
  have hnames : ts.map Statement.name = ss.map Statement.name := by
    have := congrArg (List.map Statement.name) hsame
    simpa only [List.map_map, Function.comp_def, Statement.name_ungrouped] using this
  have hfields : ts.map Statement.field = ss.map Statement.field := by
    have := congrArg (List.map Statement.field) hsame
    simpa only [List.map_map, Function.comp_def, Statement.field_ungrouped] using this
  refine (builds_iff_statements limit w _).mpr ⟨ts, hts, fun t ht => ?_, hnames ▸ hn, hfields.symm⟩
  obtain ⟨s, hsm, he⟩ := List.mem_map.mp (hsame ▸ List.mem_map_of_mem ht)
  rw [← Statement.sound_ungrouped_iff, ← he, Statement.sound_ungrouped_iff]
  exact hs s hsm

/-- Declarations that build give the same forest exactly if their normal forms are the same, and
    any other grouping of the statements gives that forest too. -/
theorem same_forest_iff_same_normal (h₁ : (v.buildForest limit₁).result = .ok f₁)
    (h₂ : (w.buildForest limit₂).result = .ok f₂) :
    (f₁ = f₂ ↔ v.normal = w.normal) ∧
      ∀ u : Value, u.ungrouped = v.ungrouped → (u.buildForest limit₁).result = .ok f₁ := by
  refine ⟨⟨fun h => ?_, fun h => ?_⟩, fun u hu => builds_of_ungrouped_eq h₁ hu⟩
  · rw [normal_eq_declaring h₁, normal_eq_declaring h₂, h]
  · rw [← meaning_normal h₁, h, meaning_normal h₂]

/-- A block of a bare statement, and a tuple of the statement with options that are none. -/
theorem same_forest_of_block_and_tuple :
    ([Field.mk "a" "int" [] true [] []] = [Field.mk "a" "int" [] true [] []] ↔
        (Value.item (.block [.statement "requires" [.text "a", .text "int"]])).normal =
          (Value.tuple [.item (.statement "requires" [.text "a", .text "int", .fixed []])]).normal) ∧
      ∀ u : Value, u.ungrouped = (Value.item (.block [.statement "requires" [.text "a", .text "int"]])).ungrouped →
        (u.buildForest .usual).result = .ok [.mk "a" "int" [] true [] []] := by
  have hblock : ((Value.item (.block [.statement "requires" [.text "a", .text "int"]])).buildForest .usual).result =
      .ok [.mk "a" "int" [] true [] []] := rfl
  have htuple : ((Value.tuple [.item (.statement "requires" [.text "a", .text "int", .fixed []])]).buildForest
      .usual).result = .ok [.mk "a" "int" [] true [] []] := rfl
  exact same_forest_iff_same_normal hblock htuple

end Value

end FieldForest
