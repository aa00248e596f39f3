/-
  FieldForest.Proofs.Build.Image — the forests that are built from some declaration.

  A built field has its flag behind its other options; with fields below it, the flag is its
  only option. Names differ at every level, neither names nor types are empty, and no option
  holds a declaration. A forest of such fields declares itself: `Field.declaration` writes a
  field as the statement that means it.

  Proved:
  - `Sound.normalized_field`: what a sound statement means is such a field, no higher than the
    levels that are left.
  - `Normalized.sound_declaration`: the statement of such a field is sound and means that field.
  - `wellKeyed_field` / `wellKeyed_declaring`: options that differ in name come of dictionaries
    that have one entry for a key, and make such dictionaries.
  - `exists_builds_iff_normalized`: so these are the forests that are built.
-/
import FieldForest.Proofs.Build.Acceptance
import FieldForest.Proofs.Value.Keys

namespace FieldForest

/-! ## Normalized fields -/

namespace Field

/-- A field as a build gives it, fields below it included. -/
inductive Normalized : Field → Prop
  | leaf {name type : Text} {settings : List (Text × Value)} {required : Bool} :
      name ≠ [] → type ≠ [] → (∀ o ∈ settings, o.2.isDeclaration = false) →
      Normalized (.mk name type settings required [] [])
  | composite {name type : Text} {required : Bool} {fields : List Field} :
      name ≠ [] → type ≠ [] → fields ≠ [] → (fields.map Field.id).Nodup → (∀ f ∈ fields, Normalized f) →
      Normalized (.mk name type [] required [] fields)

mutual

/-- The number of levels of a field, its own counted. -/
def height : Field → Nat
  | .mk _ _ _ _ _ fields => 1 + mostHeight fields

def mostHeight : List Field → Nat
  | [] => 0
  | f :: fs => max f.height (mostHeight fs)

end

theorem mostHeight_le_iff {fs : List Field} {n : Nat} : mostHeight fs ≤ n ↔ ∀ f ∈ fs, f.height ≤ n := by
  induction fs with
  | nil => simp [mostHeight]
  | cons f fs ih => rw [mostHeight, Nat.max_le, ih, List.forall_mem_cons]

end Field

/-! ## What is built is normalized -/

namespace Statement

variable {limit : Nesting.Limit} {depth : Nat}

theorem map_id_field (ss : List Statement) : (ss.map field).map Field.id = ss.map name := by
  simp [List.map_map, Function.comp_def]

/-- The field of a sound statement is normalized and reaches no deeper than the limit. -/
theorem Sound.normalized_field {s : Statement} (h : s.Sound limit depth) :
    s.field.Normalized ∧ depth + s.field.height ≤ limit.depth + 1 := by
  induction h with
  | bare hd hid hty =>
    rw [field_bare]
    exact ⟨.leaf hid hty (by simp), by simp only [Field.height, Field.mostHeight]; omega⟩
  | options hd hid hty hc he =>
    rw [field_options _ _ _ hc]
    exact ⟨.leaf hid hty fun o ho => (he _ (mem_settingsOf ho).1).2,
      by simp only [Field.height, Field.mostHeight]; omega⟩
  | @composite depth k id ty body hd hid hty hne hs hn ih =>
    rw [field_composite]
    have hfields : ∀ f ∈ body.statements.map field, f.Normalized ∧ f.height ≤ limit.depth - depth := by
      intro f hf
      obtain ⟨t, ht, rfl⟩ := List.mem_map.mp hf
      have := ih t ht
      exact ⟨this.1, by omega⟩
    have hnames : ((body.statements.map field).map Field.id).Nodup := by rwa [map_id_field]
    refine ⟨.composite hid hty (mt List.map_eq_nil_iff.mp hne) hnames fun f hf => (hfields f hf).1, ?_⟩
    have := Field.mostHeight_le_iff.mpr fun f hf => (hfields f hf).2
    simp only [Field.height]
    omega

end Statement

/-! ## What is normalized is built -/

/-- The keyword for the flag. -/
def Keyword.ofFlag (required : Bool) : Keyword := if required then .requires else .optional

theorem Keyword.ofFlag_eq_requires (required : Bool) : decide (ofFlag required = .requires) = required := by
  cases required <;> rfl

namespace Field

mutual

/-- The statement that means a field. -/
def declaration : Field → Statement
  | .mk name type leading required _ [] =>
    ⟨(Keyword.ofFlag required).name, [.text name, .text type, .dict (entriesOf leading)]⟩
  | .mk name type _ required _ (f :: fs) =>
    ⟨(Keyword.ofFlag required).name,
      [.text name, .text type, .nested (.sequence (f.declaration.item :: declarations fs))]⟩

def declarations : List Field → List Item
  | [] => []
  | f :: fs => f.declaration.item :: declarations fs

end

theorem declarations_eq_map (fs : List Field) : declarations fs = fs.map fun f => f.declaration.item := by
  induction fs with
  | nil => rfl
  | cons f fs ih => rw [declarations, ih, List.map_cons]

end Field

namespace Field

variable {limit : Nesting.Limit} {depth : Nat}

theorem declaration_composite {name type : Text} {required : Bool} {fields : List Field} (h : fields ≠ []) :
    declaration (.mk name type [] required [] fields) =
      ⟨(Keyword.ofFlag required).name,
        [.text name, .text type, .nested (.sequence ((fields.map declaration).map Statement.item))]⟩ := by
  cases fields with
  | nil => exact absurd rfl h
  | cons f fs => simp [declaration, declarations_eq_map]

theorem statements_declarations (fs : List Field) :
    (Declaration.sequence ((fs.map declaration).map Statement.item)).statements = fs.map declaration :=
  Statement.allStatements_map_item _

/-- The statement of a normalized field that keeps to the limit is sound and means that field. -/
theorem Normalized.sound_declaration {f : Field} (hf : f.Normalized) (hk : f.WellKeyed)
    (hd : depth + f.height ≤ limit.depth + 1) : f.declaration.Sound limit depth ∧ f.declaration.field = f := by
  induction hf generalizing depth with
  | @leaf _ _ settings required hid hty hs =>
    rw [WellKeyed, List.append_nil] at hk
    simp only [height, mostHeight] at hd
    have hopt : ∀ e ∈ entriesOf settings, IsOption e := by
      intro e he
      obtain ⟨o, ho, rfl⟩ := List.mem_map.mp he
      exact ⟨⟨o.1, rfl⟩, hs o ho⟩
    refine ⟨.options (by omega) hid hty rfl hopt, ?_⟩
    rw [declaration, Statement.field_options _ _ _ rfl, settingsOf_entriesOf fun o ho => hk.1.ne_flagKey ho,
      Keyword.ofFlag_eq_requires]
  | @composite _ _ required fields hid hty hne hn hs ih =>
    simp only [height] at hd
    have hfields : ∀ f ∈ fields, f.declaration.Sound limit (depth + 1) ∧ f.declaration.field = f := by
      intro f hf
      have := mostHeight_le_iff.mp (Nat.le_refl _) f hf
      exact ih f hf (allWellKeyed_iff.mp hk.2.2.2 f hf) (by omega)
    have hmeant : (fields.map declaration).map Statement.field = fields := by
      rw [List.map_map]
      exact (List.map_congr_left fun f hf => (hfields f hf).2).trans (List.map_id fields)
    have hnames : (fields.map declaration).map Statement.name = fields.map Field.id := by
      rw [← Statement.map_id_field, hmeant]
    rw [declaration_composite hne]
    refine ⟨.composite (by omega) hid hty ?_ ?_ ?_, ?_⟩
    · rw [statements_declarations]
      exact mt List.map_eq_nil_iff.mp hne
    · rw [statements_declarations]
      intro s hs
      obtain ⟨f, hf, rfl⟩ := List.mem_map.mp hs
      exact (hfields f hf).1
    · rwa [statements_declarations, hnames]
    · rw [Statement.field_composite, statements_declarations, hmeant, Keyword.ofFlag_eq_requires]

end Field

/-! ## Keys -/

theorem namesDiffer_settingsOf {entries : List (Value × Value)} (h : KeysDiffer entries) :
    NamesDiffer (settingsOf entries) := by
  have hflag : Field.flagKey ∉ (settingsOf entries).map Prod.fst := by
    intro hm
    obtain ⟨o, ho, e⟩ := List.mem_map.mp hm
    exact (mem_settingsOf ho).2 e
  refine List.nodup_cons.mpr ⟨hflag, ?_⟩
  clear hflag
  fun_induction settingsOf entries with
  | case1 => exact List.nodup_nil
  | case2 v rest ih => exact ih (List.pairwise_cons.mp h).2
  | case3 key v rest hk ih =>
    obtain ⟨hkey, hrest⟩ := List.pairwise_cons.mp h
    refine List.nodup_cons.mpr ⟨fun hm => ?_, ih hrest⟩
    obtain ⟨o, ho, rfl⟩ := List.mem_map.mp hm
    have := hkey _ (mem_settingsOf ho).1
    simp [Value.same] at this
  | case4 e rest he ih => exact ih (List.pairwise_cons.mp h).2

theorem optionsWellKeyed_settingsOf {entries : List (Value × Value)} (h : Value.EntriesWellKeyed entries) :
    Value.OptionsWellKeyed (settingsOf entries) :=
  Value.optionsWellKeyed_iff.mpr fun _ ho => (Value.entriesWellKeyed_iff.mp h _ (mem_settingsOf ho).1).2

namespace Item

mutual

theorem WellKeyed.statements : ∀ {i : Item}, i.WellKeyed → ∀ s ∈ i.statements, s.item.WellKeyed
  | .statement keyword args, h, s, hs => by
    rw [Item.statements, List.mem_singleton] at hs
    subst hs
    exact h
  | .block items, h, s, hs => by
    rw [Item.statements] at hs
    exact AllWellKeyed.allStatements h s hs

theorem AllWellKeyed.allStatements :
    ∀ {items : List Item}, AllWellKeyed items → ∀ s ∈ Item.allStatements items, s.item.WellKeyed
  | [], _, s, hs => by simp [Item.allStatements] at hs
  | i :: is, h, s, hs => by
    rw [Item.allStatements, List.mem_append] at hs
    rcases hs with hs | hs
    · exact WellKeyed.statements h.1 s hs
    · exact AllWellKeyed.allStatements h.2 s hs

end

end Item

theorem Declaration.WellKeyed.statements {d : Declaration} (h : d.WellKeyed) :
    ∀ s ∈ d.statements, s.item.WellKeyed := by
  cases d with
  | single i => exact Item.AllWellKeyed.allStatements ⟨h, trivial⟩
  | sequence is => exact Item.AllWellKeyed.allStatements h

theorem Value.WellKeyed.mapping {v : Value} (h : v.WellKeyed) :
    KeysDiffer (v.mapping?.getD []) ∧ EntriesWellKeyed (v.mapping?.getD []) := by
  cases v with
  | dict entries | fixed entries => exact h
  | _ => exact ⟨.nil, trivial⟩

namespace Statement

theorem wellKeyed_body {s : Statement} (h : s.item.WellKeyed) : ∀ t ∈ s.body, t.item.WellKeyed := by
  intro t ht
  unfold body at ht
  split at ht
  · exact Declaration.WellKeyed.statements h.2.2.1 t ht
  · cases ht

theorem wellKeyed_settings {s : Statement} (h : s.item.WellKeyed) :
    NamesDiffer s.settings ∧ Value.OptionsWellKeyed s.settings := by
  unfold settings
  split
  · have hm := Value.WellKeyed.mapping h.2.2.1
    exact ⟨namesDiffer_settingsOf hm.1, optionsWellKeyed_settingsOf hm.2⟩
  · exact ⟨by simp [NamesDiffer], trivial⟩

/-- What a statement means has one option for a name, where its dictionaries have one entry for
    a key. -/
theorem wellKeyed_field {s : Statement} (h : s.item.WellKeyed) : s.field.WellKeyed := by
  induction s using Statement.induction with
  | step s ih =>
    obtain ⟨hn, ho⟩ := wellKeyed_settings h
    rw [field_eq, Field.WellKeyed, List.append_nil, Field.allWellKeyed_iff]
    refine ⟨hn, ho, trivial, fun f hf => ?_⟩
    obtain ⟨t, ht, rfl⟩ := List.mem_map.mp hf
    exact ih t ht (wellKeyed_body h t ht)

end Statement

namespace Value

theorem WellKeyed.statements? {v : Value} {ss : List Statement} (h : v.WellKeyed) (hs : v.statements? = some ss) :
    ∀ s ∈ ss, s.item.WellKeyed := by
  obtain ⟨items, hi, rfl⟩ := Option.map_eq_some_iff.mp hs
  refine Item.AllWellKeyed.allStatements (Item.allWellKeyed_iff.mpr fun i him => ?_)
  cases v with
  | item j =>
    cases hi
    rw [List.mem_singleton.mp him]
    exact h
  | list xs | tuple xs =>
    have hmem : .item i ∈ xs := mapM_item?_eq_some_iff.mp hi ▸ List.mem_map_of_mem him
    exact allWellKeyed_iff.mp h _ hmem
  | _ => cases hi

end Value

/-- Entries made of options have different keys, and are well keyed as the options are. -/
theorem wellKeyed_entriesOf {options : List (Text × Value)} (hn : NamesDiffer options)
    (ho : Value.OptionsWellKeyed options) : (Value.dict (entriesOf options)).WellKeyed := by
  constructor
  · have := (List.nodup_cons.mp hn).2
    rw [List.Nodup, List.pairwise_map] at this
    exact List.pairwise_map.mpr (this.imp fun h => by simpa [Value.same] using h)
  · refine Value.entriesWellKeyed_iff.mpr fun e he => ?_
    obtain ⟨o, ho', rfl⟩ := List.mem_map.mp he
    exact ⟨trivial, Value.optionsWellKeyed_iff.mp ho o ho'⟩

theorem Field.Normalized.wellKeyed_declaration {f : Field} (hf : f.Normalized) (hk : f.WellKeyed) :
    f.declaration.item.WellKeyed := by
  induction hf with
  | leaf =>
    obtain ⟨hn, ho, -, -⟩ := hk
    exact ⟨trivial, trivial, wellKeyed_entriesOf (by rwa [List.append_nil] at hn) ho, trivial⟩
  | composite hid hty hne hn hs ih =>
    rw [Field.declaration_composite hne]
    refine ⟨trivial, trivial, Item.allWellKeyed_iff.mpr fun i hi => ?_, trivial⟩
    obtain ⟨s, hs', rfl⟩ := List.mem_map.mp hi
    obtain ⟨f, hf, rfl⟩ := List.mem_map.mp hs'
    exact ih f hf (Field.allWellKeyed_iff.mp hk.2.2.2 f hf)

/-! ## Forests -/

/-- The sequence of the statements that mean the fields of a forest. -/
def Value.declaring (forest : List Field) : Value := ofStatements (forest.map Field.declaration)

/-- A normalized forest is built from the declaration it makes. -/
theorem builds_declaring {limit : Nesting.Limit} {forest : List Field} (hk : Field.AllWellKeyed forest)
    (hn : (forest.map Field.id).Nodup) (hf : ∀ f ∈ forest, f.Normalized)
    (hd : Field.mostHeight forest ≤ limit.depth) :
    ((Value.declaring forest).buildForest limit).result = .ok forest := by
  have hfields : ∀ f ∈ forest, f.declaration.Sound limit 1 ∧ f.declaration.field = f := by
    intro f hff
    have := Field.mostHeight_le_iff.mp hd f hff
    exact (hf f hff).sound_declaration (Field.allWellKeyed_iff.mp hk f hff) (by omega)
  have hmeant : (forest.map Field.declaration).map Statement.field = forest := by
    rw [List.map_map]
    exact (List.map_congr_left fun f hff => (hfields f hff).2).trans (List.map_id forest)
  refine (Value.builds_iff_statements limit _ forest).mpr ⟨_, Value.statements?_ofStatements _, ?_, ?_, hmeant.symm⟩
  · intro s hs
    obtain ⟨f, hff, rfl⟩ := List.mem_map.mp hs
    exact (hfields f hff).1
  · rwa [← Statement.map_id_field, hmeant]

theorem wellKeyed_declaring {forest : List Field} (hk : Field.AllWellKeyed forest)
    (hf : ∀ f ∈ forest, f.Normalized) : (Value.declaring forest).WellKeyed := by
  refine Value.allWellKeyed_iff.mpr fun v hv => ?_
  obtain ⟨i, hi, rfl⟩ := List.mem_map.mp hv
  obtain ⟨s, hs, rfl⟩ := List.mem_map.mp hi
  obtain ⟨f, hff, rfl⟩ := List.mem_map.mp hs
  exact (hf f hff).wellKeyed_declaration (Field.allWellKeyed_iff.mp hk f hff)

/-- The forests that are built, under a limit, from some declaration whose dictionaries have one
    entry for a key: names differ at every level, every field is normalized and has one option
    for a name, and the limit allows for the height. -/
theorem exists_builds_iff_normalized (limit : Nesting.Limit) (forest : List Field) :
    (∃ v : Value, v.WellKeyed ∧ (v.buildForest limit).result = .ok forest) ↔
      Field.AllWellKeyed forest ∧ (forest.map Field.id).Nodup ∧ (∀ f ∈ forest, f.Normalized) ∧
        Field.mostHeight forest ≤ limit.depth := by
  constructor
  · rintro ⟨v, hv, hb⟩
    obtain ⟨ss, hss, hs, hn, rfl⟩ := (Value.builds_iff_statements limit v forest).mp hb
    have hfields : ∀ f ∈ ss.map Statement.field, f.WellKeyed ∧ f.Normalized ∧ f.height ≤ limit.depth := by
      intro f hf
      obtain ⟨s, hsm, rfl⟩ := List.mem_map.mp hf
      obtain ⟨hnorm, hh⟩ := (hs s hsm).normalized_field
      exact ⟨Statement.wellKeyed_field (hv.statements? hss s hsm), hnorm, by omega⟩
    exact ⟨Field.allWellKeyed_iff.mpr fun f hf => (hfields f hf).1, by rwa [Statement.map_id_field],
      fun f hf => (hfields f hf).2.1, Field.mostHeight_le_iff.mpr fun f hf => (hfields f hf).2.2⟩
  · rintro ⟨hk, hn, hf, hd⟩
    exact ⟨Value.declaring forest, wellKeyed_declaring hk hf, builds_declaring hk hn hf hd⟩

end FieldForest
