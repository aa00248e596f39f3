/-
  FieldForest.Proofs.Forest.AlwaysPresent — the paths of the fields that are always present.

  The fields on the way down to a position are its line. A field is always present if every field
  of its line is required, itself included, and its path is the ids of its line with points
  between. The paths are found by a recursion that leaves out what is below an optional field and
  carries along the front of the paths; they are those of the always present fields in the list
  of all fields with their positions.

  Proved:
  - `requiredPathsBelow_eq`: the recursion, at any place of a forest.
  - `pairwise_lt_placed`: the positions in the list grow in the order of reading, so each is there
    once.
  - `position_eq_of_ids_eq`: where names differ at every level, the ids of a line tell the position.
  - `pathTo_inj`: a path tells the ids of the line if none of them holds a point.
  - `requiredPaths_of_always_present`: the paths are those of the always present fields, the front
    stands in front of each, and paths of a forest that is built differ.
-/
import Mathlib.Data.List.Lex
import Mathlib.Data.List.Nodup
import FieldForest.Forest.RequiredPaths
import FieldForest.Proofs.Build.Image
import FieldForest.Proofs.Forest.Views

namespace FieldForest

/-- Names differ below a normalized field, and the fields there are normalized. -/
theorem Field.Normalized.names_below {f : Field} (h : f.Normalized) :
    (f.fields.map Field.id).Nodup ∧ ∀ g ∈ f.fields, g.Normalized := by
  cases h with
  | leaf => exact ⟨List.nodup_nil, List.forall_mem_nil _⟩
  | composite _ _ _ hnames hfields => exact ⟨hnames, hfields⟩

namespace Forest

/-- The fields on the way down to a position, the one that stands there included. -/
def line (forest : List Field) : List Nat → List Field
  | [] => []
  | i :: position =>
    match forest[i]? with
    | some f => f :: line f.fields position
    | none => []

/-- The field at a position is required, and so is every field above it. -/
def isAlwaysPresent (forest : List Field) (position : List Nat) : Bool := (line forest position).all Field.required

/-- The ids from the root down to a position, with points between. -/
def pathTo (forest : List Field) (position : List Nat) : Text :=
  List.intercalate "." ((line forest position).map Field.id)

/-! ## The recursion -/

theorem line_cons {forest : List Field} {i : Nat} {f : Field} (h : forest[i]? = some f) (position : List Nat) :
    line forest (i :: position) = f :: line f.fields position := by
  rw [line, h]

/-- What stands in front of the paths below a line: its ids with a point behind each. -/
def frontOf (above : List Field) : Text := above.flatMap fun f => f.id ++ "."

theorem frontOf_concat (above : List Field) (f : Field) : frontOf (above ++ [f]) = frontOf above ++ (f.id ++ ".") := by
  simp [frontOf]

theorem intercalate_concat (above : List Field) (f : Field) :
    List.intercalate "." ((above ++ [f]).map Field.id) = frontOf above ++ f.id := by
  induction above with
  | nil => simp [frontOf, List.intercalate]
  | cons g above ih =>
    cases above with
    | nil => simp [frontOf, List.intercalate]
    | cons h above =>
      rw [List.cons_append, List.map_cons, List.cons_append, List.map_cons, List.intercalate_cons_cons,
        ← List.map_cons, ← List.cons_append, ih]
      simp [frontOf, List.append_assoc]

/-- The paths of the always present fields among some with their positions. -/
def presentPaths (forest : List Field) (front : Text) (placed : List (List Nat × Field)) : List Text :=
  (placed.filter fun p => isAlwaysPresent forest p.1).map fun p => front ++ pathTo forest p.1

section

variable {forest : List Field} {front : Text}

theorem presentPaths_append (ps qs : List (List Nat × Field)) :
    presentPaths forest front (ps ++ qs) = presentPaths forest front ps ++ presentPaths forest front qs := by
  simp [presentPaths]

/-- One field of the recursion: below an optional one nothing is always present, and below a required
    one the paths begin with its id and a point. -/
theorem fieldRequiredPaths_of_below {position : List Nat} {above : List Field} {f : Field}
    (hpresent : ∀ g ∈ above, g.required = true) (hline : ∀ q, line forest (position ++ q) = above ++ f :: line f.fields q)
    (hbelow : f.required = true → requiredPaths (front ++ frontOf (above ++ [f])) f.fields =
      presentPaths forest front (placedFrom position 0 f.fields)) :
    fieldRequiredPaths (front ++ frontOf above) f = presentPaths forest front (fieldPlaced position f) := by
  have hown : line forest position = above ++ [f] := by
    have := hline []
    rwa [List.append_nil, line] at this
  obtain ⟨id, type, leading, required, trailing, fields⟩ := f
  rw [fieldRequiredPaths]
  cases required with
  | false =>
    have hnone : ∀ p ∈ fieldPlaced position (.mk id type leading false trailing fields),
        ¬isAlwaysPresent forest p.1 = true := by
      intro p hp
      obtain ⟨q, hq, -⟩ := (mem_fieldPlaced_iff position _).mp hp
      rw [isAlwaysPresent, hq, hline]
      simp [Field.required]
    rw [presentPaths, List.filter_eq_nil_iff.mpr hnone]
    rfl
  | true =>
    have hhere : isAlwaysPresent forest position = true := by
      rw [isAlwaysPresent, hown, List.all_append, List.all_eq_true.mpr hpresent]
      rfl
    have hpath : front ++ pathTo forest position = front ++ frontOf above ++ id := by
      rw [pathTo, hown, intercalate_concat, List.append_assoc]
      rfl
    have hbelow := hbelow rfl
    rw [frontOf_concat, ← List.append_assoc, ← List.append_assoc] at hbelow
    have hfirst (rest : List (List Nat × Field)) :
        presentPaths forest front ((position, .mk id type leading true trailing fields) :: rest) =
          (front ++ frontOf above ++ id) :: presentPaths forest front rest := by
      simp only [presentPaths, List.filter_cons, hhere, if_true, List.map_cons, hpath]
    rw [if_pos rfl, fieldPlaced, hfirst]
    exact congrArg _ hbelow

mutual

theorem fieldRequiredPaths_eq {position : List Nat} {above : List Field} (hpresent : ∀ g ∈ above, g.required = true) :
    ∀ {f : Field}, (∀ q, line forest (position ++ q) = above ++ f :: line f.fields q) →
      fieldRequiredPaths (front ++ frontOf above) f = presentPaths forest front (fieldPlaced position f)
  | .mk id type leading required trailing fields, hline => by
    refine fieldRequiredPaths_of_below hpresent hline fun hrequired => ?_
    refine requiredPathsBelow_eq ?_ 0 fun i q => ?_
    · rw [List.forall_mem_append, List.forall_mem_singleton]
      exact ⟨hpresent, hrequired⟩
    · rw [Nat.zero_add, hline, List.append_assoc]
      rfl

/-- The paths that are found for the fields under a line that is always present are those of the
    always present fields there. -/
theorem requiredPathsBelow_eq {position : List Nat} {above : List Field} (hpresent : ∀ g ∈ above, g.required = true)
    (index : Nat) :
    ∀ {fs : List Field}, (∀ i q, line forest (position ++ (index + i) :: q) = above ++ line fs (i :: q)) →
      requiredPaths (front ++ frontOf above) fs = presentPaths forest front (placedFrom position index fs)
  | [], _ => by
    rw [requiredPaths, placedFrom]
    rfl
  | f :: fs, hline => by
    have hf : fieldRequiredPaths (front ++ frontOf above) f =
        presentPaths forest front (fieldPlaced (position ++ [index]) f) := by
      refine fieldRequiredPaths_eq hpresent fun q => ?_
      rw [List.append_assoc, List.singleton_append]
      exact hline 0 q
    have hfs : requiredPaths (front ++ frontOf above) fs =
        presentPaths forest front (placedFrom position (index + 1) fs) := by
      refine requiredPathsBelow_eq hpresent (index + 1) fun i q => ?_
      have hnext := hline (i + 1) q
      rwa [← Nat.add_assoc, Nat.add_right_comm] at hnext
    rw [requiredPaths, placedFrom, presentPaths_append, hf, hfs]

end

end

theorem requiredPaths_eq_presentPaths (front : Text) (forest : List Field) :
    requiredPaths front forest = presentPaths forest front (placed forest) := by
  have hbelow : requiredPaths (front ++ frontOf []) forest = presentPaths forest front (placedFrom [] 0 forest) := by
    refine requiredPathsBelow_eq (List.forall_mem_nil _) 0 fun i q => ?_
    rw [Nat.zero_add]
    rfl
  rwa [frontOf, List.flatMap_nil, List.append_nil] at hbelow

/-! ## The order of positions -/

mutual

theorem pairwise_lt_fieldPlaced (position : List Nat) : ∀ f : Field,
    ((fieldPlaced position f).map Prod.fst).Pairwise (· < ·)
  | .mk id type leading required trailing fields => by
    rw [fieldPlaced, List.map_cons, List.pairwise_cons]
    refine ⟨fun q hq => ?_, pairwise_lt_placedFrom position 0 fields⟩
    obtain ⟨p, hp, rfl⟩ := List.mem_map.mp hq
    obtain ⟨i, q, f, hposition, -, -⟩ := (mem_placedFrom_iff position 0 fields).mp hp
    have hbelow : position ++ [] < position ++ (0 + i) :: q := List.append_left_lt (List.nil_lt_cons _ _)
    rwa [List.append_nil, ← hposition] at hbelow

theorem pairwise_lt_placedFrom (above : List Nat) (index : Nat) : ∀ fs : List Field,
    ((placedFrom above index fs).map Prod.fst).Pairwise (· < ·)
  | [] => by
    rw [placedFrom]
    exact List.Pairwise.nil
  | f :: fs => by
    rw [placedFrom, List.map_append, List.pairwise_append]
    refine ⟨pairwise_lt_fieldPlaced _ f, pairwise_lt_placedFrom above (index + 1) fs, ?_⟩
    intro p hp q hq
    obtain ⟨a, ha, rfl⟩ := List.mem_map.mp hp
    obtain ⟨b, hb, rfl⟩ := List.mem_map.mp hq
    obtain ⟨inside, hfirst, -⟩ := (mem_fieldPlaced_iff _ f).mp ha
    obtain ⟨i, behind, -, hsecond, -, -⟩ := (mem_placedFrom_iff above (index + 1) fs).mp hb
    have hindex : index < index + 1 + i := by omega
    rw [hfirst, hsecond, List.append_assoc, List.singleton_append]
    exact List.append_left_lt (List.cons_lt_cons_iff.mpr (.inl hindex))

end

/-- The positions grow in the order of the list: a field stands in front of those below it, and what
    is below it in front of the fields beside it. -/
theorem pairwise_lt_placed (forest : List Field) : ((placed forest).map Prod.fst).Pairwise (· < ·) :=
  pairwise_lt_placedFrom [] 0 forest

theorem nodup_placed (forest : List Field) : (placed forest).Nodup := by
  have hpositions : ((placed forest).map Prod.fst).Nodup := (pairwise_lt_placed forest).imp fun hlt => ne_of_lt hlt
  exact List.Nodup.of_map _ hpositions

/-! ## Lines and paths -/

theorem below?_eq_fieldAt? {f : Field} {position : List Nat} (h : position ≠ []) :
    below? f position = fieldAt? f.fields position := by
  cases position with
  | nil => exact absurd rfl h
  | cons i position => rfl

/-- A position leads somewhere: there is a field for each of its steps. -/
def Leads (forest : List Field) (position : List Nat) : Prop := (line forest position).length = position.length

theorem Leads.exists_of_cons {forest : List Field} {i : Nat} {position : List Nat} (h : Leads forest (i :: position)) :
    ∃ f, forest[i]? = some f ∧ Leads f.fields position := by
  rw [Leads, line] at h
  cases hf : forest[i]? with
  | none =>
    rw [hf] at h
    cases h
  | some f =>
    rw [hf] at h
    exact ⟨f, rfl, Nat.succ.inj h⟩

/-- A position where a field stands leads there. -/
theorem leads_of_fieldAt? {position : List Nat} : ∀ {forest : List Field} {f : Field},
    fieldAt? forest position = some f → Leads forest position := by
  induction position with
  | nil =>
    intro forest f h
    rfl
  | cons i position ih =>
    intro forest f h
    obtain ⟨g, hg, hbelow⟩ := Option.bind_eq_some_iff.mp h
    have hrest : Leads g.fields position := by
      by_cases hend : position = []
      · subst hend
        rfl
      · rw [below?_eq_fieldAt? hend] at hbelow
        exact ih hbelow
    rw [Leads, line_cons hg, List.length_cons, hrest, List.length_cons]

/-- The fields of a line stand in the forest. -/
theorem exists_fieldAt?_of_mem_line {position : List Nat} : ∀ {forest : List Field} {f : Field},
    f ∈ line forest position → ∃ q, fieldAt? forest q = some f := by
  induction position with
  | nil =>
    intro forest f h
    cases h
  | cons i position ih =>
    intro forest f h
    cases hg : forest[i]? with
    | none =>
      rw [line, hg] at h
      cases h
    | some g =>
      rw [line_cons hg] at h
      rcases List.mem_cons.mp h with h | h
      · exact ⟨[i], by rw [fieldAt?, hg, h]; rfl⟩
      · obtain ⟨q, hq⟩ := ih h
        refine ⟨i :: q, ?_⟩
        have hne : q ≠ [] := by
          intro hnil
          rw [hnil, fieldAt?] at hq
          cases hq
        rw [fieldAt?, hg, Option.bind_some, below?_eq_fieldAt? hne, hq]

/-- Where names differ at every level, the ids of a line lead to one position only. -/
theorem position_eq_of_ids_eq {position : List Nat} : ∀ {forest : List Field} {other : List Nat},
    (forest.map Field.id).Nodup → (∀ f ∈ forest, f.Normalized) → Leads forest position → Leads forest other →
    (line forest position).map Field.id = (line forest other).map Field.id → position = other := by
  induction position with
  | nil =>
    intro forest other _ _ _ hother hids
    have hlength := congrArg List.length hids
    rw [List.length_map, List.length_map, hother] at hlength
    exact (List.length_eq_zero_iff.mp hlength.symm).symm
  | cons i position ih =>
    intro forest other hnames hnormalized hposition hother hids
    obtain ⟨f, hf, hfposition⟩ := hposition.exists_of_cons
    rw [line_cons hf] at hids
    rcases other with _ | ⟨j, other⟩
    · cases hids
    obtain ⟨g, hg, hgother⟩ := hother.exists_of_cons
    rw [line_cons hg, List.map_cons, List.map_cons, List.cons.injEq] at hids
    have hindex : i = j := by
      have hbound : i < (forest.map Field.id).length := by
        rw [List.length_map]
        exact (List.getElem?_eq_some_iff.mp hf).1
      refine (List.getElem?_inj hbound hnames).mp ?_
      rw [List.getElem?_map, List.getElem?_map, hf, hg]
      exact congrArg some hids.1
    subst hindex
    rw [hf] at hg
    cases hg
    obtain ⟨hbelow, hfields⟩ := (hnormalized f (List.mem_of_getElem? hf)).names_below
    rw [ih hbelow hfields hfposition hgother hids.2]

theorem line_ne_nil {forest : List Field} {position : List Nat} {f : Field} (h : fieldAt? forest position = some f) :
    line forest position ≠ [] := by
  intro hnil
  have hleads := leads_of_fieldAt? h
  rw [Leads, hnil, List.length_nil] at hleads
  rw [List.length_eq_zero_iff.mp hleads.symm] at h
  cases h

/-- A path tells the ids of its line, if none of the ids holds a point. -/
theorem pathTo_inj {forest : List Field} {position other : List Nat}
    (hids : ∀ f ∈ line forest position, CodePoint.char '.' ∉ f.id) (hline : line forest position ≠ [])
    (hids' : ∀ f ∈ line forest other, CodePoint.char '.' ∉ f.id) (hline' : line forest other ≠ [])
    (h : pathTo forest position = pathTo forest other) :
    (line forest position).map Field.id = (line forest other).map Field.id := by
  have hsplit := congrArg (List.splitOn (CodePoint.char '.')) h
  have hread {fs : List Field} (hfs : ∀ f ∈ fs, CodePoint.char '.' ∉ f.id) (hne : fs ≠ []) :
      (List.intercalate (".": Text) (fs.map Field.id)).splitOn (CodePoint.char '.') = fs.map Field.id :=
    List.splitOn_intercalate _ (List.forall_mem_map.mpr hfs) (mt List.map_eq_nil_iff.mp hne)
  rwa [pathTo, pathTo, hread hids hline, hread hids' hline'] at hsplit

/-! ## The paths of a forest -/

/-- The paths differ where names differ at every level and no id holds a point. -/
theorem nodup_requiredPaths (front : Text) {forest : List Field} (hnames : (forest.map Field.id).Nodup)
    (hnormalized : ∀ f ∈ forest, f.Normalized) (hids : ∀ p ∈ placed forest, CodePoint.char '.' ∉ p.2.id) :
    (requiredPaths front forest).Nodup := by
  have hline (position : List Nat) : ∀ f ∈ line forest position, CodePoint.char '.' ∉ f.id := by
    intro f hf
    obtain ⟨q, hq⟩ := exists_fieldAt?_of_mem_line hf
    exact hids (q, f) (mem_placed_iff.mpr hq)
  rw [requiredPaths_eq_presentPaths, presentPaths]
  refine List.Nodup.map_on ?_ ((nodup_placed forest).filter _)
  intro p hp q hq hpaths
  have hp := mem_placed_iff.mp (List.mem_of_mem_filter hp)
  have hq := mem_placed_iff.mp (List.mem_of_mem_filter hq)
  have hread := pathTo_inj (hline p.1) (line_ne_nil hp) (hline q.1) (line_ne_nil hq) (List.append_cancel_left hpaths)
  have hposition : p.1 = q.1 :=
    position_eq_of_ids_eq hnames hnormalized (leads_of_fieldAt? hp) (leads_of_fieldAt? hq) hread
  refine Prod.ext hposition ?_
  rw [hposition, hq] at hp
  exact (Option.some.inj hp).symm

/-- Fields with their positions, one of each in the order of reading; the paths are those of the always
    present ones among them, each with the front in front of it, and the paths of a forest that is built
    differ if no id holds a point. -/
theorem requiredPaths_of_always_present (front : Text) (forest : List Field) :
    requiredPaths front forest =
        ((placed forest).filter fun p => isAlwaysPresent forest p.1).map (fun p => front ++ pathTo forest p.1) ∧
      (∀ position f, (position, f) ∈ placed forest ↔ fieldAt? forest position = some f) ∧
      ((placed forest).map Prod.fst).Pairwise (· < ·) ∧
      requiredPaths front forest = (requiredPaths [] forest).map (front ++ ·) ∧
      ((∃ limit v, (Value.buildForest limit v).result = .ok forest) →
        (∀ p ∈ placed forest, CodePoint.char '.' ∉ p.2.id) → (requiredPaths front forest).Nodup) := by
  refine ⟨requiredPaths_eq_presentPaths front forest, fun _ _ => mem_placed_iff, pairwise_lt_placed forest, ?_, ?_⟩
  · rw [requiredPaths_eq_presentPaths, requiredPaths_eq_presentPaths, presentPaths, presentPaths, List.map_map]
    rfl
  · intro hbuilt hids
    obtain ⟨limit, v, hbuilt⟩ := hbuilt
    obtain ⟨ss, -, hsound, hnames, hmeant⟩ := (Value.builds_iff_statements limit v forest).mp hbuilt
    subst hmeant
    refine nodup_requiredPaths front ?_ ?_ hids
    · rwa [Statement.map_id_field]
    · intro f hf
      obtain ⟨s, hs, rfl⟩ := List.mem_map.mp hf
      exact (hsound s hs).normalized_field.1

/-- A required field below an optional one is left out, one below a required one is not. -/
theorem requiredPaths_of_nested :
    let declared : Value := .item (.statement "requires" [.text "a", .text "map", .nested (.sequence
      [.statement "optional" [.text "b", .text "map", .nested (.single (.statement "requires" [.text "c", .text "int"]))],
        .statement "requires" [.text "d", .text "int"]])])
    let forest : List Field := [.mk "a" "map" [] true []
      [.mk "b" "map" [] false [] [.mk "c" "int" [] true [] []], .mk "d" "int" [] true [] []]]
    (declared.buildForest .usual).result = .ok forest ∧ requiredPaths "$." forest = ["$.a", "$.a.d"] ∧
      (requiredPaths "$." forest).Nodup := by
  intro declared forest
  have hbuilt : (declared.buildForest .usual).result = .ok forest := rfl
  have hids : ∀ p ∈ placed forest, CodePoint.char '.' ∉ p.2.id := by decide
  obtain ⟨-, -, -, -, hdiffer⟩ := requiredPaths_of_always_present "$." forest
  exact ⟨hbuilt, rfl, hdiffer ⟨.usual, declared, hbuilt⟩ hids⟩

end Forest

end FieldForest
