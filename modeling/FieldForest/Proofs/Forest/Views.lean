/-
  FieldForest.Proofs.Forest.Views — every view of a forest shows the same fields.

  The rows, the outline and the count are three recursions of their own. Each of them is told
  here by one list, `placed`: all fields of a forest with their positions, each in front of
  those below it. A position is the index on every level from the top down, so the positions
  of an outline are its shape, and one more than the depth of a field is their length.

  Proved:
  - `mem_placed_iff`: the list holds a field at a position exactly if it stands there.
  - `forall_mem_placed`: what goes down from field to field holds of all of them.
  - `rows_eq_map_placed` / `placed_ofForest` / `size_eq_length_placed`: what each view makes of
    the list.
  - `settings_eq_filter` / `settingsText_eq_nil_iff`: the options that are shown, and when none are.
  - `views_agree`: the three views together, with their texts written out.
-/
import FieldForest.Forest.Outline
import FieldForest.Proofs.Value.Keys

namespace FieldForest

/-! ## Fields and labels with their positions -/

namespace Forest

mutual

/-- A field that stands at `position`, and the fields below it. -/
def fieldPlaced (position : List Nat) : Field → List (List Nat × Field)
  | .mk id type leading required trailing fields =>
    (position, .mk id type leading required trailing fields) :: placedFrom position 0 fields

/-- Fields that stand side by side under `above`, the first of them at `index`. -/
def placedFrom (above : List Nat) (index : Nat) : List Field → List (List Nat × Field)
  | [] => []
  | f :: fs => fieldPlaced (above ++ [index]) f ++ placedFrom above (index + 1) fs

end

/-- All fields of a forest with their positions, each in front of those below it. -/
def placed (forest : List Field) : List (List Nat × Field) := placedFrom [] 0 forest

/-- The field at a position below a field, which is itself at the empty one. -/
def below? (f : Field) : List Nat → Option Field
  | [] => some f
  | i :: position => f.fields[i]?.bind (below? · position)

/-- The field at a position of a forest. -/
def fieldAt? (forest : List Field) : List Nat → Option Field
  | [] => none
  | i :: position => forest[i]?.bind (below? · position)

end Forest

namespace Outline

mutual

/-- The label of an outline that stands at `position`, and those below it. -/
def labelPlaced (position : List Nat) : Outline → List (List Nat × Text)
  | .mk label children => (position, label) :: placedFrom position 0 children

def placedFrom (above : List Nat) (index : Nat) : List Outline → List (List Nat × Text)
  | [] => []
  | o :: os => labelPlaced (above ++ [index]) o ++ placedFrom above (index + 1) os

end

/-- All labels below the title with their positions, each in front of those below it. -/
def placed (o : Outline) : List (List Nat × Text) := placedFrom [] 0 o.children

end Outline

namespace Forest

mutual

theorem mem_fieldPlaced_iff {p : List Nat} {g : Field} (position : List Nat) : ∀ f : Field,
    (p, g) ∈ fieldPlaced position f ↔ ∃ q, p = position ++ q ∧ below? f q = some g
  | .mk id type leading required trailing fields => by
    rw [fieldPlaced, List.mem_cons, mem_placedFrom_iff position 0 fields]
    constructor
    · rintro (h | ⟨i, q, f, rfl, hf, hq⟩)
      · cases h
        exact ⟨[], (List.append_nil _).symm, rfl⟩
      · refine ⟨i :: q, by rw [Nat.zero_add], ?_⟩
        rw [below?, Field.fields, hf]
        exact hq
    · rintro ⟨_ | ⟨i, q⟩, rfl, hq⟩
      · cases hq
        exact .inl (by rw [List.append_nil])
      · obtain ⟨f, hf, hq⟩ := Option.bind_eq_some_iff.mp hq
        exact .inr ⟨i, q, f, by rw [Nat.zero_add], hf, hq⟩

theorem mem_placedFrom_iff {p : List Nat} {g : Field} (above : List Nat) (index : Nat) : ∀ fs : List Field,
    (p, g) ∈ placedFrom above index fs ↔
      ∃ i q f, p = above ++ (index + i) :: q ∧ fs[i]? = some f ∧ below? f q = some g
  | [] => by simp [placedFrom]
  | f :: fs => by
    rw [placedFrom, List.mem_append, mem_fieldPlaced_iff (above ++ [index]) f, mem_placedFrom_iff above (index + 1) fs]
    constructor
    · rintro (⟨q, rfl, hq⟩ | ⟨i, q, f', rfl, hf, hq⟩)
      · exact ⟨0, q, f, by simp, rfl, hq⟩
      · refine ⟨i + 1, q, f', ?_, hf, hq⟩
        rw [show index + (i + 1) = index + 1 + i by omega]
    · rintro ⟨_ | i, q, f', rfl, hf, hq⟩
      · cases hf
        exact .inl ⟨q, by simp, hq⟩
      · refine .inr ⟨i, q, f', ?_, hf, hq⟩
        rw [show index + (i + 1) = index + 1 + i by omega]

end

/-- The list holds a field at a position exactly if the field stands there. -/
theorem mem_placed_iff {forest : List Field} {position : List Nat} {f : Field} :
    (position, f) ∈ placed forest ↔ fieldAt? forest position = some f := by
  rw [placed, mem_placedFrom_iff]
  cases position with
  | nil => simp [fieldAt?]
  | cons i q => simp [fieldAt?, Option.bind_eq_some_iff, and_assoc]

theorem of_below? {P : Field → Prop} (hfields : ∀ f, P f → ∀ g ∈ f.fields, P g) {position : List Nat} :
    ∀ {f g : Field}, P f → below? f position = some g → P g := by
  induction position with
  | nil =>
    intro f g hf hg
    cases hg
    exact hf
  | cons i position ih =>
    intro f g hf hg
    obtain ⟨between, hbetween, hg⟩ := Option.bind_eq_some_iff.mp hg
    exact ih (hfields f hf between (List.mem_of_getElem? hbetween)) hg

/-- What goes down from a field to those below it holds of all fields if it does of those on top. -/
theorem forall_mem_placed {P : Field → Prop} (hfields : ∀ f, P f → ∀ g ∈ f.fields, P g) {forest : List Field}
    (h : ∀ f ∈ forest, P f) : ∀ p ∈ placed forest, P p.2 := by
  intro p hp
  obtain ⟨i, q, f, -, hf, hbelow⟩ := (mem_placedFrom_iff [] 0 forest).mp hp
  exact of_below? hfields (h f (List.mem_of_getElem? hf)) hbelow

/-! ## What the views make of the list -/

mutual

theorem fieldRows_eq_map_placed {depth : Nat} {position : List Nat} (h : position.length = depth + 1) : ∀ f : Field,
    fieldRows depth f = (fieldPlaced position f).map fun p => p.2.row (p.1.length - 1)
  | .mk id type leading required trailing fields => by
    have hown : position.length - 1 = depth := by omega
    have hbelow := rowsAt_eq_map_placed h 0 fields
    rw [fieldRows, fieldPlaced, List.map_cons, hbelow, hown]

theorem rowsAt_eq_map_placed {depth : Nat} {above : List Nat} (h : above.length = depth) (index : Nat) :
    ∀ fs : List Field, rowsAt depth fs = (placedFrom above index fs).map fun p => p.2.row (p.1.length - 1)
  | [] => by
    rw [rowsAt, placedFrom, List.map_nil]
  | f :: fs => by
    have hposition : (above ++ [index]).length = depth + 1 := by simp [h]
    have hf := fieldRows_eq_map_placed hposition f
    have hfs := rowsAt_eq_map_placed h (index + 1) fs
    rw [rowsAt, placedFrom, List.map_append, hf, hfs]

end

theorem rows_eq_map_placed (forest : List Field) :
    rows forest = (placed forest).map fun p => p.2.row (p.1.length - 1) :=
  rowsAt_eq_map_placed (List.length_nil) 0 forest

mutual

theorem fieldSize_eq_length_placed (position : List Nat) : ∀ f : Field,
    fieldSize f = (fieldPlaced position f).length
  | .mk id type leading required trailing fields => by
    have hbelow := sizeFrom_eq_length_placed position 0 fields
    rw [fieldSize, fieldPlaced, List.length_cons, hbelow, Nat.add_comm]

theorem sizeFrom_eq_length_placed (above : List Nat) (index : Nat) : ∀ fs : List Field,
    size fs = (placedFrom above index fs).length
  | [] => by
    rw [size, placedFrom, List.length_nil]
  | f :: fs => by
    have hf := fieldSize_eq_length_placed (above ++ [index]) f
    have hfs := sizeFrom_eq_length_placed above (index + 1) fs
    rw [size, placedFrom, List.length_append, hf, hfs]

end

theorem size_eq_length_placed (forest : List Field) : size forest = (placed forest).length :=
  sizeFrom_eq_length_placed [] 0 forest

/-- There are as many rows as fields. -/
theorem length_rows (forest : List Field) : (rows forest).length = size forest := by
  rw [rows_eq_map_placed, List.length_map, size_eq_length_placed]

end Forest

namespace Outline

mutual

theorem labelPlaced_ofField (position : List Nat) : ∀ f : Field,
    labelPlaced position (ofField f) = (Forest.fieldPlaced position f).map fun p => (p.1, labelOf p.2)
  | .mk id type leading required trailing fields => by
    have hbelow := placedFrom_ofFields position 0 fields
    rw [ofField, labelPlaced, Forest.fieldPlaced, List.map_cons, hbelow]

theorem placedFrom_ofFields (above : List Nat) (index : Nat) : ∀ fs : List Field,
    placedFrom above index (ofFields fs) = (Forest.placedFrom above index fs).map fun p => (p.1, labelOf p.2)
  | [] => by
    rw [ofFields, placedFrom, Forest.placedFrom, List.map_nil]
  | f :: fs => by
    have hf := labelPlaced_ofField (above ++ [index]) f
    have hfs := placedFrom_ofFields above (index + 1) fs
    rw [ofFields, placedFrom, Forest.placedFrom, List.map_append, hf, hfs]

end

theorem placed_ofForest (title : Text) (forest : List Field) :
    (ofForest title forest).placed = (Forest.placed forest).map fun p => (p.1, labelOf p.2) :=
  placedFrom_ofFields [] 0 forest

end Outline

/-! ## The texts, written out -/

namespace Field

/-- The options that are shown are all but the flag, in their order. -/
theorem settings_eq_filter {f : Field} (h : NamesDiffer f.settings) :
    f.settings = f.options.filter (·.1 ≠ flagKey) := by
  obtain ⟨id, type, leading, required, trailing, fields⟩ := f
  have hkept : ∀ o ∈ leading ++ trailing, decide (o.1 ≠ flagKey) = true := fun o ho =>
    decide_eq_true (h.ne_flagKey ho)
  rw [List.forall_mem_append] at hkept
  show leading ++ trailing = (leading ++ (flagKey, .bool required) :: trailing).filter (·.1 ≠ flagKey)
  rw [List.filter_append, List.filter_cons_of_neg (by simp), List.filter_eq_self.mpr hkept.1,
    List.filter_eq_self.mpr hkept.2]

/-- The text of the options is empty only if there are none: each of them has its sign. -/
theorem settingsText_eq_nil_iff {f : Field} : f.settingsText = [] ↔ f.settings = [] := by
  unfold settingsText
  rcases f.settings with _ | ⟨⟨key, value⟩, rest⟩
  · exact iff_of_true rfl rfl
  · refine iff_of_false (fun h => ?_) (List.cons_ne_nil _ _)
    have hsign : CodePoint.char '=' ∈ Text.commaSeparated
        (((key, value) :: rest).map fun o => o.1 ++ "=" ++ o.2.display) := by
      rw [Text.commaSeparated, List.map_cons]
      cases rest <;> simp [List.intercalate, Text.ofString, Text.ofChars]
    have hnil : Text.commaSeparated (((key, value) :: rest).map fun o => o.1 ++ "=" ++ o.2.display) = [] := h
    rw [hnil] at hsign
    cases hsign

/-- The row of a field that stands at a position. -/
def rowAt (position : List Nat) (f : Field) : Row where
  name := List.replicate (2 * (position.length - 1)) (.char ' ') ++ f.id
  type := f.type
  flag := if f.required then "required" else "optional"
  options := List.intercalate ", " ((f.options.filter (·.1 ≠ flagKey)).map fun o => o.1 ++ "=" ++ o.2.display)

/-- The label of a field that has this row. -/
def labelBeside (r : Row) (f : Field) : Text :=
  let flag : Text := if f.required then "[green]required[/green]" else "[yellow]optional[/yellow]"
  let options : Text := if r.options = [] then [] else " [dim](" ++ Markup.escape r.options ++ ")[/dim]"
  "[cyan]" ++ Markup.escape f.id ++ "[/cyan]: [magenta]" ++ Markup.escape f.type ++ "[/magenta] " ++ flag ++ options

theorem row_eq_rowAt {f : Field} (h : NamesDiffer f.settings) (position : List Nat) :
    f.row (position.length - 1) = f.rowAt position := by
  rw [row, rowAt, settingsText, flagWord, settings_eq_filter h, Text.commaSeparated]

theorem settingsMarkup_eq (f : Field) : Outline.settingsMarkup f =
    if f.settingsText = [] then ([] : Text) else " [dim](" ++ Markup.escape f.settingsText ++ ")[/dim]" := by
  unfold Outline.settingsMarkup Outline.styled
  simp only [settingsText_eq_nil_iff, List.isEmpty_iff, List.append_assoc]
  rfl

theorem labelOf_eq_labelBeside {f : Field} (h : NamesDiffer f.settings) (position : List Nat) :
    Outline.labelOf f = f.labelBeside (f.rowAt position) := by
  have hoptions : (f.rowAt position).options = f.settingsText := by rw [← row_eq_rowAt h, row]
  have hflag : Outline.flagMarkup f.required =
      if f.required then ("[green]required[/green]" : Text) else "[yellow]optional[/yellow]" := by
    cases f.required <;> decide
  unfold labelBeside Outline.labelOf Outline.styled
  rw [hoptions, hflag, settingsMarkup_eq]
  simp only [List.append_assoc]
  rfl

end Field

namespace Forest

/-- The rows and the outline show the fields of a forest, each with the texts written out, in
    the same order and the outline in the same places, and the count is the number of either. -/
theorem views_agree (title : Text) {forest : List Field} (h : Field.AllWellKeyed forest) :
    rows forest = (placed forest).map (fun p => p.2.rowAt p.1) ∧
      (Outline.ofForest title forest).placed =
        (placed forest).map (fun p => (p.1, p.2.labelBeside (p.2.rowAt p.1))) ∧
      size forest = (rows forest).length ∧ size forest = (Outline.ofForest title forest).placed.length := by
  have hnames : ∀ p ∈ placed forest, NamesDiffer p.2.settings := fun p hp =>
    (forall_mem_placed (fun _ hf => hf.fields) (Field.allWellKeyed_iff.mp h) p hp).namesDiffer
  refine ⟨?_, ?_, (length_rows forest).symm, ?_⟩
  · rw [rows_eq_map_placed]
    exact List.map_congr_left fun p hp => Field.row_eq_rowAt (hnames p hp) p.1
  · rw [Outline.placed_ofForest]
    exact List.map_congr_left fun p hp => by rw [Field.labelOf_eq_labelBeside (hnames p hp) p.1]
  · rw [Outline.placed_ofForest, List.length_map, size_eq_length_placed]

/-- A field with an option and with a field below it: the second name is indented, and there
    are two labels below the title. -/
theorem views_agree_on_nested :
    let forest : List Field := [.mk "a" "map" [("default", .int 1)] true [] [.mk "b" "int" [] false [] []]]
    rows forest = [⟨"a", "map", "required", "default=1"⟩, ⟨"  b", "int", "optional", []⟩] ∧
      (Outline.ofForest "Schema" forest).placed.length = 2 := by
  intro forest
  have hkeyed : Field.AllWellKeyed forest := by
    simp only [forest, Field.AllWellKeyed, Field.WellKeyed, Value.OptionsWellKeyed, Value.WellKeyed, NamesDiffer,
      and_true]
    decide
  obtain ⟨hrows, -, -, hlabels⟩ := views_agree "Schema" hkeyed
  exact ⟨hrows.trans rfl, hlabels.symm.trans rfl⟩

end Forest

end FieldForest
