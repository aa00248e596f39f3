/-
  FieldForest.Proofs.Forest.Indentation — the rows of a forest determine its fields.

  A row shows how deep its field stands by the spaces in front of the name, two for each field
  above it. Where no id begins with a space these spaces end where the id begins, so a row tells
  the depth, the id, the type and the flag of its field: its entry. Entries with their depths can
  be cut into fields in one way only. The fields below a field are told by the entries behind its
  own that are deeper, and the next field beside it begins at the first one that is not.

  Proved:
  - `ofColumns_columns`: a row gives its entry back.
  - `columns_rows` / `entries_eq_entriesAt`: the rows show the entries of the fields in order.
  - `bareAll_eq_of_entriesAt_append`: entries at one depth, with anything less deep behind them, are
    those of one list of fields only.
  - `columns_eq_iff_bareAll_eq`: so rows agree in these columns exactly if the forests agree but for options.
-/
import FieldForest.Proofs.Forest.Views

namespace FieldForest

mutual

/-- A field without its options, and with the fields below it without theirs. -/
def Field.bare : Field → Field
  | .mk id type _ required _ fields => .mk id type [] required [] (Field.bareAll fields)

def Field.bareAll : List Field → List Field
  | [] => []
  | f :: fs => f.bare :: Field.bareAll fs

end

/-- The columns of a row that do not tell of options: the name with its indentation, the type and
    the flag. -/
def Row.columns (r : Row) : Text × Text × Text := (r.name, r.type, r.flag)

/-- What these columns tell of a field. -/
structure Entry where
  depth : Nat
  id : Text
  type : Text
  required : Bool

namespace Entry

/-- The columns that show an entry. -/
def columns (e : Entry) : Text × Text × Text :=
  (List.replicate (2 * e.depth) (.char ' ') ++ e.id, e.type, Field.flagWord e.required)

/-- The entry that columns show: its depth is half the number of spaces in front of the name. -/
def ofColumns (c : Text × Text × Text) : Entry where
  depth := (c.1.takeWhile (· = .char ' ')).length / 2
  id := c.1.dropWhile (· = .char ' ')
  type := c.2.1
  required := c.2.2 == Field.flagWord true

/-- The columns give the entry back if its id does not begin with a space. -/
theorem ofColumns_columns {e : Entry} (h : e.id.head? ≠ some (.char ' ')) : ofColumns e.columns = e := by
  obtain ⟨depth, id, type, required⟩ := e
  have hspaces : ∀ c ∈ List.replicate (2 * depth) (CodePoint.char ' '), decide (c = .char ' ') = true := by
    intro c hc
    exact decide_eq_true (List.eq_of_mem_replicate hc)
  have hid : id.takeWhile (· = .char ' ') = [] ∧ id.dropWhile (· = .char ' ') = id := by
    cases id with
    | nil => exact ⟨rfl, rfl⟩
    | cons c rest =>
      have hc : ¬c = .char ' ' := by simpa using h
      simp [hc]
  have hflag : (Field.flagWord required == Field.flagWord true) = required := by
    cases required <;> decide
  simp only [ofColumns, columns, List.takeWhile_append_of_pos hspaces, List.dropWhile_append_of_pos hspaces, hid.1,
    hid.2, hflag, List.append_nil, List.length_replicate]
  congr 1
  omega

end Entry

namespace Forest

/-! ## The entries of a forest -/

/-- The entry of a field that stands at a position. -/
def entryOf (p : List Nat × Field) : Entry := ⟨p.1.length - 1, p.2.id, p.2.type, p.2.required⟩

/-- The entries of all fields of a forest, in order. -/
def entries (forest : List Field) : List Entry := (placed forest).map entryOf

/-- The rows show the entries. -/
theorem columns_rows (forest : List Field) : (rows forest).map Row.columns = (entries forest).map Entry.columns := by
  rw [rows_eq_map_placed, entries, List.map_map, List.map_map]
  rfl

mutual

/-- The entry of a field that has `depth` fields above it, and those of the fields below it. -/
def fieldEntries (depth : Nat) : Field → List Entry
  | .mk id type _ required _ fields => ⟨depth, id, type, required⟩ :: entriesAt (depth + 1) fields

/-- The entries of fields that have `depth` fields above them. -/
def entriesAt (depth : Nat) : List Field → List Entry
  | [] => []
  | f :: fs => fieldEntries depth f ++ entriesAt depth fs

end

mutual

theorem map_entryOf_fieldPlaced {depth : Nat} {position : List Nat} (h : position.length = depth + 1) : ∀ f : Field,
    (fieldPlaced position f).map entryOf = fieldEntries depth f
  | .mk id type leading required trailing fields => by
    have hown : position.length - 1 = depth := by omega
    have hbelow := map_entryOf_placedFrom h 0 fields
    rw [fieldPlaced, List.map_cons, hbelow, entryOf, hown, fieldEntries]
    rfl

theorem map_entryOf_placedFrom {depth : Nat} {above : List Nat} (h : above.length = depth) (index : Nat) :
    ∀ fs : List Field, (placedFrom above index fs).map entryOf = entriesAt depth fs
  | [] => by
    rw [placedFrom, entriesAt, List.map_nil]
  | f :: fs => by
    have hposition : (above ++ [index]).length = depth + 1 := by simp [h]
    have hf := map_entryOf_fieldPlaced hposition f
    have hfs := map_entryOf_placedFrom h (index + 1) fs
    rw [placedFrom, entriesAt, List.map_append, hf, hfs]

end

theorem entries_eq_entriesAt (forest : List Field) : entries forest = entriesAt 0 forest :=
  map_entryOf_placedFrom List.length_nil 0 forest

/-! ## Entries cut into fields -/

/-- The level of these entries ends in front of `rest`, which is nothing or begins less deep. -/
def EndsLevel (depth : Nat) (rest : List Entry) : Prop := ∀ e ∈ rest.head?, e.depth < depth

/-- The first field at a depth, the fields below it, the fields beside it, and the rest. -/
theorem entriesAt_cons_append (depth : Nat) (f : Field) (fs : List Field) (rest : List Entry) :
    entriesAt depth (f :: fs) ++ rest =
      ⟨depth, f.id, f.type, f.required⟩ :: (entriesAt (depth + 1) f.fields ++ (entriesAt depth fs ++ rest)) := by
  obtain ⟨id, type, leading, required, trailing, fields⟩ := f
  rw [entriesAt, fieldEntries, List.cons_append, List.cons_append, List.append_assoc]
  rfl

/-- A field that is left at a depth does not end the level. -/
theorem not_endsLevel_entriesAt_cons {depth : Nat} {f : Field} {fs : List Field} {rest : List Entry} :
    ¬EndsLevel depth (entriesAt depth (f :: fs) ++ rest) := by
  intro h
  rw [entriesAt_cons_append] at h
  exact Nat.lt_irrefl depth (h _ rfl)

/-- What ends a level ends the one below it, also behind the fields that are left. -/
theorem endsLevel_entriesAt_append {depth : Nat} {rest : List Entry} (h : EndsLevel depth rest) (fs : List Field) :
    EndsLevel (depth + 1) (entriesAt depth fs ++ rest) := by
  intro e he
  cases fs with
  | nil =>
    rw [entriesAt, List.nil_append] at he
    exact Nat.lt_succ_of_lt (h e he)
  | cons f fs =>
    rw [entriesAt_cons_append] at he
    cases he
    exact Nat.lt_succ_self depth

/-- Entries at one depth, up to the end of the level, are those of one list of fields: the first is
    that of the first field, the deeper ones behind it are those below it, and what is left of the
    level tells the fields beside it. -/
theorem bareAll_eq_of_entriesAt_append : ∀ {fs gs : List Field} {depth : Nat} {rest rest' : List Entry},
    EndsLevel depth rest → EndsLevel depth rest' → entriesAt depth fs ++ rest = entriesAt depth gs ++ rest' →
    Field.bareAll fs = Field.bareAll gs ∧ rest = rest'
  | [], [], _, _, _, _, _, h => ⟨rfl, h⟩
  | [], g :: gs, depth, rest, rest', hrest, _, h => by
    have h : rest = entriesAt depth (g :: gs) ++ rest' := h
    rw [h] at hrest
    exact absurd hrest not_endsLevel_entriesAt_cons
  | f :: fs, [], depth, rest, rest', _, hrest', h => by
    have h : entriesAt depth (f :: fs) ++ rest = rest' := h
    rw [← h] at hrest'
    exact absurd hrest' not_endsLevel_entriesAt_cons
  | .mk id type _ required _ fields :: fs, .mk id' type' _ required' _ fields' :: gs, depth, rest, rest', hrest,
      hrest', h => by
    rw [entriesAt_cons_append, entriesAt_cons_append, List.cons.injEq, Entry.mk.injEq] at h
    obtain ⟨⟨-, hid, htype, hrequired⟩, h⟩ := h
    have h : entriesAt (depth + 1) fields ++ (entriesAt depth fs ++ rest) =
        entriesAt (depth + 1) fields' ++ (entriesAt depth gs ++ rest') := h
    have hbelow := endsLevel_entriesAt_append hrest fs
    have hbelow' := endsLevel_entriesAt_append hrest' gs
    obtain ⟨hfields, hbeside⟩ := bareAll_eq_of_entriesAt_append hbelow hbelow' h
    obtain ⟨hfs, hsame⟩ := bareAll_eq_of_entriesAt_append hrest hrest' hbeside
    simp only [Field.id, Field.type, Field.required] at hid htype hrequired
    simp only [Field.bareAll, Field.bare, hid, htype, hrequired, hfields, hfs]
    exact ⟨trivial, hsame⟩

/-! ## Rows and fields -/

mutual

theorem fieldEntries_bare (depth : Nat) : ∀ f : Field, fieldEntries depth f.bare = fieldEntries depth f
  | .mk id type leading required trailing fields => by
    have hbelow := entriesAt_bareAll (depth + 1) fields
    rw [Field.bare, fieldEntries, hbelow, fieldEntries]

/-- Options do not show in entries. -/
theorem entriesAt_bareAll (depth : Nat) : ∀ fs : List Field, entriesAt depth (Field.bareAll fs) = entriesAt depth fs
  | [] => by
    rw [Field.bareAll]
  | f :: fs => by
    have hf := fieldEntries_bare depth f
    have hfs := entriesAt_bareAll depth fs
    rw [Field.bareAll, entriesAt, hf, hfs, entriesAt]

end

theorem bareAll_eq_iff_entries_eq {forest other : List Field} :
    Field.bareAll forest = Field.bareAll other ↔ entries forest = entries other := by
  rw [entries_eq_entriesAt, entries_eq_entriesAt]
  constructor
  · intro h
    rw [← entriesAt_bareAll 0 forest, h, entriesAt_bareAll]
  · intro h
    have hnone : EndsLevel 0 [] := by
      intro e he
      cases he
    refine (bareAll_eq_of_entriesAt_append hnone hnone ?_).1
    rw [List.append_nil, List.append_nil, h]

/-- Where no id begins with a space, the entries are read off the rows. -/
theorem map_ofColumns_rows {forest : List Field} (h : ∀ p ∈ placed forest, p.2.id.head? ≠ some (.char ' ')) :
    ((rows forest).map Row.columns).map Entry.ofColumns = entries forest := by
  rw [columns_rows, entries, List.map_map, List.map_map]
  refine List.map_congr_left fun p hp => ?_
  exact Entry.ofColumns_columns (h p hp)

/-- If no id begins with a space, the rows of two forests agree on name, type and flag exactly if the
    forests agree in shape and, field by field, in id, type and flag. -/
theorem columns_eq_iff_bareAll_eq {forest other : List Field}
    (h : ∀ p ∈ placed forest, p.2.id.head? ≠ some (.char ' '))
    (h' : ∀ p ∈ placed other, p.2.id.head? ≠ some (.char ' ')) :
    (rows forest).map Row.columns = (rows other).map Row.columns ↔ Field.bareAll forest = Field.bareAll other := by
  rw [bareAll_eq_iff_entries_eq]
  constructor
  · intro hrows
    rw [← map_ofColumns_rows h, hrows, map_ofColumns_rows h']
  · intro hentries
    rw [columns_rows, hentries, columns_rows]

/-- A field with an empty id below `a`: the rows are those of the forest without the option, and not
    those of the forest where it stands beside `a`. -/
theorem columns_of_unnamed_below :
    let unnamed : Field := .mk [] "int" [] false [] []
    let forest : List Field := [.mk "a" "map" [("x", .int 1)] true [] [unnamed]]
    let plain : List Field := [.mk "a" "map" [] true [] [unnamed]]
    let moved : List Field := [.mk "a" "map" [] true [] [], unnamed]
    (∀ p ∈ placed forest, p.2.id.head? ≠ some (.char ' ')) ∧ (∀ p ∈ placed plain, p.2.id.head? ≠ some (.char ' ')) ∧
      (rows forest).map Row.columns = (rows plain).map Row.columns ∧ Field.bareAll forest = Field.bareAll plain ∧
      (rows forest).map Row.columns ≠ (rows moved).map Row.columns := by
  intro unnamed forest plain moved
  have hforest : ∀ p ∈ placed forest, p.2.id.head? ≠ some (.char ' ') := by decide
  have hplain : ∀ p ∈ placed plain, p.2.id.head? ≠ some (.char ' ') := by decide
  have hmoved : ∀ p ∈ placed moved, p.2.id.head? ≠ some (.char ' ') := by decide
  have hrows : (rows forest).map Row.columns = (rows plain).map Row.columns := rfl
  refine ⟨hforest, hplain, hrows, (columns_eq_iff_bareAll_eq hforest hplain).mp hrows, ?_⟩
  intro hsame
  have hbare := (columns_eq_iff_bareAll_eq hforest hmoved).mp hsame
  exact absurd (congrArg List.length hbare) (by decide)

end Forest

end FieldForest
