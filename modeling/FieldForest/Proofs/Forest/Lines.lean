/-
  FieldForest.Proofs.Forest.Lines — the lines of a listing, one for each field.

  A line is cut at its end, and nothing is cut there but the spaces that fill up the column of the flag:
  the flag is a word, and options end as their last value does, in no blank. Nor does a shown
  value hold a line feed. So a listing has one line for each field below the title, the ruler and
  the empty line, unless a line feed stands in the title, an id, a type or the key of an option.

  Proved:
  - `line_row`: the line of a field's row, with nothing of the row cut off.
  - `newline_mem_wholeLine_iff`: when a line feed stands in it.
  - `listing_lines`: the text of a listing, and when its lines are those of the rows.
-/
import FieldForest.Proofs.Forest.Views
import FieldForest.Proofs.Value.Shown

namespace FieldForest

open Text

/-! ## Lines with nothing cut off -/

namespace Forest

/-- The line of a row as a whole: the name and the type in their columns and the flag alone, or in
    its column with the options behind it. -/
def Row.wholeLine (r : Row) : Text :=
  List.rightpad 30 (.char ' ') r.name ++ " " ++ List.rightpad 20 (.char ' ') r.type ++ " " ++
    (if r.options = [] then r.flag else List.rightpad 10 (.char ' ') r.flag ++ " " ++ r.options)

open CodePoint (isClosing)

theorem line_eq_wholeLine {r : Row} (hflag : r.flag.endsIn isClosing = true)
    (hoptions : r.options ≠ [] → r.options.endsIn isClosing = true) : Row.line r = Row.wholeLine r := by
  unfold Row.line Row.wholeLine padEnd
  by_cases h : r.options = []
  · -- all that follows the flag is spaces
    have hspaces : ∀ c ∈ List.replicate (10 - r.flag.length) (CodePoint.char ' ') ++ (" " : Text),
        isBlankOrSeparator c = true := by
      rw [List.forall_mem_append]
      exact ⟨fun c hc => by rw [List.eq_of_mem_replicate hc]; rfl, by decide⟩
    have hfill (front : Text) : (front ++ List.rightpad 10 (.char ' ') r.flag ++ " " ++ r.options : Text) =
        front ++ r.flag ++ (List.replicate (10 - r.flag.length) (CodePoint.char ' ') ++ (" " : Text)) := by
      simp only [h, List.rightpad, List.append_assoc, List.append_nil]
    rw [hfill, trimEnd_append hspaces, trimEnd_of_endsIn (endsIn_append hflag _), if_pos h]
  · rw [trimEnd_of_endsIn (endsIn_append (hoptions h) _), if_neg h]
    simp only [List.append_assoc]

/-- Nothing of a field is cut off from its line. -/
theorem line_row (depth : Nat) (f : Field) : Row.line (f.row depth) = Row.wholeLine (f.row depth) := by
  refine line_eq_wholeLine ?_ fun h => Field.endsIn_settingsText (mt Field.settingsText_eq_nil_iff.mpr h)
  show (Field.flagWord f.required).endsIn isClosing = true
  cases f.required <;> rfl

end Forest

/-! ## Line feeds -/

theorem newline_mem_rightpad_iff {width : Nat} {t : Text} :
    .char '\n' ∈ List.rightpad width (.char ' ') t ↔ .char '\n' ∈ t := by
  rw [List.rightpad, List.mem_append, List.mem_replicate]
  exact or_iff_left fun h => absurd h.2 (by decide)

namespace Field

/-- Of the options that are shown, only the keys can hold a line feed. -/
theorem newline_mem_settingsText_iff {f : Field} :
    .char '\n' ∈ f.settingsText ↔ ∃ o ∈ f.settings, .char '\n' ∈ o.1 := by
  have hpart (o : Text × Value) : .char '\n' ∈ (o.1 ++ "=" ++ o.2.display : Text) ↔ .char '\n' ∈ o.1 := by
    have hvalue := newline_not_mem_of_printable o.2.printable_display
    have hsign : CodePoint.char '\n' ∉ ("=" : Text) := by decide
    simp only [List.mem_append, hsign, hvalue, or_false]
  have hcomma : CodePoint.char '\n' ∉ (", " : Text) := by decide
  rw [settingsText, commaSeparated, mem_intercalate_iff hcomma]
  simp only [List.mem_map, exists_exists_and_eq_and, hpart]

theorem newline_mem_keys_iff {f : Field} :
    (∃ o ∈ f.options, .char '\n' ∈ o.1) ↔ ∃ o ∈ f.settings, .char '\n' ∈ o.1 := by
  obtain ⟨id, type, leading, required, trailing, fields⟩ := f
  have hflag : CodePoint.char '\n' ∉ flagKey := by decide
  simp only [options, settings, List.mem_append, List.mem_cons, or_and_right, exists_or, exists_eq_left, hflag,
    false_or]

end Field

namespace Forest

theorem newline_mem_wholeLine_iff {depth : Nat} {f : Field} : .char '\n' ∈ Row.wholeLine (f.row depth) ↔
    .char '\n' ∈ f.id ∨ .char '\n' ∈ f.type ∨ ∃ o ∈ f.options, .char '\n' ∈ o.1 := by
  have hspace : CodePoint.char '\n' ∉ (" " : Text) := by decide
  have hname : .char '\n' ∈ (f.row depth).name ↔ .char '\n' ∈ f.id := by
    rw [Field.row, List.mem_append, List.mem_replicate]
    exact or_iff_right fun h => absurd h.2 (by decide)
  have hflag : CodePoint.char '\n' ∉ (f.row depth).flag := by
    show CodePoint.char '\n' ∉ Field.flagWord f.required
    cases f.required <;> decide
  have hrest : CodePoint.char '\n' ∈ (if (f.row depth).options = [] then (f.row depth).flag
      else List.rightpad 10 (.char ' ') (f.row depth).flag ++ " " ++ (f.row depth).options) ↔
        ∃ o ∈ f.options, .char '\n' ∈ o.1 := by
    rw [Field.newline_mem_keys_iff, ← Field.newline_mem_settingsText_iff]
    show _ ↔ CodePoint.char '\n' ∈ (f.row depth).options
    by_cases h : (f.row depth).options = []
    · rw [if_pos h, h]
      exact iff_of_false hflag List.not_mem_nil
    · rw [if_neg h]
      simp only [List.mem_append, newline_mem_rightpad_iff, hflag, hspace, false_or]
  unfold Row.wholeLine
  simp only [List.mem_append, newline_mem_rightpad_iff, hname, hspace, hrest, or_false, or_assoc]
  rfl

/-! ## Listings -/

/-- A listing is the title, the ruler, an empty line and the whole line of each row, with line feeds
    between them. Its lines are these, and as many as there are fields and three more, exactly if no
    line feed stands in the title, an id, a type or the key of an option, whatever the values are. -/
theorem listing_lines (title : Text) (forest : List Field) :
    let lines := title :: List.replicate 80 (.char '=') :: [] :: (rows forest).map Row.wholeLine
    let unbroken := .char '\n' ∉ title ∧ ∀ p ∈ placed forest,
      .char '\n' ∉ p.2.id ∧ .char '\n' ∉ p.2.type ∧ ∀ o ∈ p.2.options, .char '\n' ∉ o.1
    listing title forest = List.intercalate "\n" lines ∧
      ((listing title forest).splitOn (.char '\n') = lines ↔ unbroken) ∧
      (((listing title forest).splitOn (.char '\n')).length = 3 + size forest ↔ unbroken) := by
  intro lines unbroken
  have htext : listing title forest = List.intercalate "\n" lines := by
    have hrows : (rows forest).map Row.line = (rows forest).map Row.wholeLine := by
      rw [rows_eq_map_placed, List.map_map, List.map_map]
      exact List.map_congr_left fun p _ => line_row _ p.2
    rw [listing, hrows]
  have hne : lines ≠ [] := List.cons_ne_nil _ _
  have hlength : lines.length = 3 + size forest := by
    rw [← length_rows]
    simp only [lines, List.length_cons, List.length_map]
    omega
  have hunbroken : (∀ l ∈ lines, .char '\n' ∉ l) ↔ unbroken := by
    have hruler : CodePoint.char '\n' ∉ List.replicate 80 (CodePoint.char '=') := by decide
    simp only [lines, unbroken, rows_eq_map_placed, List.forall_mem_cons, List.forall_mem_map,
      newline_mem_wholeLine_iff, not_or, not_exists, not_and, hruler, not_false_eq_true, List.not_mem_nil, true_and]
  rw [← hunbroken, ← hlength, htext]
  exact ⟨rfl, splitOn_intercalate_eq_iff hne, length_splitOn_intercalate_eq_iff hne⟩

/-- A line feed in a value is shown escaped and leaves the line whole, one in a key breaks it. -/
example :
    let inValue : List Field := [.mk "a" "int" [("x", .text "\n")] true [] []]
    let inKey : List Field := [.mk "a" "int" [("\n", .text "x")] true [] []]
    ((listing "Schema" inValue).splitOn (.char '\n')).length = 4 ∧
      ((listing "Schema" inKey).splitOn (.char '\n')).length = 5 :=
  ⟨rfl, rfl⟩

end Forest

end FieldForest
