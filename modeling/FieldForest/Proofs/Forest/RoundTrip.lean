/-
  FieldForest.Proofs.Forest.RoundTrip — a forest that is saved can be loaded again.

  A field is saved with its options in order, the flag in its place among them, and made again
  from the same parts. So a forest of plain fields comes back as it was: its text is read as
  the document it was written from, and that document describes it.

  Proved:
  - `Plain.readable_toJson` / `Plain.merged_toJson`: the document of a plain field can be read, and
    is not merged.
  - `Plain.levels_le`: a plain field takes no more levels than its document is deep.
  - `ofParts_eq_ok_iff` / `assemble_eq_ok`: when a field is made of loose parts, and which one.
  - `Plain.ofValue_ofJson`: the document of a plain field describes the field.
  - `load_dump`: a forest that is plain and not too deep is saved and loaded again.
-/
import Mathlib.Data.List.Forall2
import Mathlib.Data.List.TakeDrop
import FieldForest.Forest.Loading
import FieldForest.Proofs.Value.Saving
import FieldForest.Trace

namespace FieldForest

namespace Checked

variable {α β : Type}

theorem both_eq_ok_iff {x : Checked α} {y : Checked β} {a : α} {b : β} :
    x.both y = .ok (a, b) ↔ x = .ok a ∧ y = .ok b := by
  cases x <;> cases y <;> simp [both]

theorem under_eq_ok_iff {step : Step} {x : Checked α} {a : α} : x.under step = .ok a ↔ x = .ok a := mapError_eq_ok_iff

theorem text_eq_ok_iff {name t : Text} {v : Option Value} : text name v = .ok t ↔ v = some (.text t) := by
  rcases v with _ | v
  · simp [text, fault]
  · cases v <;> simp [text, fault]

end Checked

namespace Field

/-- A field whose texts, keys and options JSON has forms for, fields below it included. -/
inductive Plain (limits : Json.Limits) : Field → Prop
  | mk {f : Field} :
      f.id.hasLoneSurrogate = false → f.type.hasLoneSurrogate = false →
      (∀ o ∈ f.options, o.1.hasLoneSurrogate = false ∧ o.2.Plain limits) →
      (∀ g ∈ f.fields, Plain limits g) → Plain limits f

theorem allToJson_eq_map (fs : List Field) : allToJson fs = fs.map toJson := by
  induction fs with
  | nil => rfl
  | cons f fs ih => rw [allToJson, ih, List.map_cons]

/-- The document of a field, made of its options with the flag in its place. -/
theorem toJson_eq (f : Field) :
    f.toJson = .object [("id", .text f.id), ("type", .text f.type),
      ("options", .object (f.options.map fun o => (o.1, o.2.toJson))), ("fields", .array (f.fields.map toJson))] := by
  cases f
  simp only [toJson, allToJson_eq_map, Value.optionsToJson_eq_map, options, List.map_append, List.map_cons]
  rfl

theorem mostLevels_le_iff {fs : List Field} {n : Nat} : mostLevels fs ≤ n ↔ ∀ f ∈ fs, f.levels ≤ n := by
  induction fs with
  | nil => simp [mostLevels]
  | cons f fs ih => rw [mostLevels, Nat.max_le, ih, List.forall_mem_cons]

theorem anyFixed_eq_false_iff {fs : List Field} : anyFixed fs = false ↔ ∀ f ∈ fs, f.hasFixed = false := by
  induction fs with
  | nil => simp [anyFixed]
  | cons f fs ih => rw [anyFixed, Bool.or_eq_false_iff, ih, List.forall_mem_cons]

/-- The levels of a field are its own and those of its options and fields, the flag having one. -/
theorem levels_le_iff {f : Field} {n : Nat} :
    f.levels ≤ n + 1 ↔ (∀ o ∈ f.options, o.2.levels ≤ n) ∧ ∀ g ∈ f.fields, g.levels ≤ n := by
  cases f with
  | mk id type leading required trailing fields =>
    simp only [options, Field.fields, List.forall_mem_append, List.forall_mem_cons,
      ← Value.mostOptionLevels_le_iff, ← mostLevels_le_iff, levels, Value.levels]
    omega

theorem hasFixed_eq_false_iff {f : Field} :
    f.hasFixed = false ↔ (∀ o ∈ f.options, o.2.hasFixed = false) ∧ ∀ g ∈ f.fields, g.hasFixed = false := by
  cases f with
  | mk id type leading required trailing fields =>
    simp only [options, Field.fields, List.forall_mem_append, List.forall_mem_cons,
      ← Value.anyOptionFixed_eq_false_iff, ← anyFixed_eq_false_iff, hasFixed, Value.hasFixed, Bool.or_eq_false_iff,
      true_and, and_assoc]

/-! ## Keys -/

/-- Names differ among all options if they do among those beside the flag and none is the flag's. -/
theorem nodup_options_iff {f : Field} : (f.options.map Prod.fst).Nodup ↔ NamesDiffer f.settings := by
  cases f with
  | mk id type leading required trailing fields =>
    rw [options, List.map_append, List.map_cons, List.perm_middle.nodup_iff, ← List.map_append]
    rfl

namespace WellKeyed

variable {f : Field}

theorem nodup_options (h : f.WellKeyed) : (f.options.map Prod.fst).Nodup := nodup_options_iff.mpr h.namesDiffer

theorem options (h : f.WellKeyed) : ∀ o ∈ f.options, o.2.WellKeyed := by
  cases f with
  | mk id type leading required trailing fields =>
    intro o ho
    rcases List.mem_append.mp ho with ho | ho
    · exact Value.optionsWellKeyed_iff.mp h.2.1 o ho
    rcases List.mem_cons.mp ho with rfl | ho
    · exact trivial
    · exact Value.optionsWellKeyed_iff.mp h.2.2.1 o ho

end WellKeyed

/-! ## Fields made of loose parts -/

theorem ofElements_eq_ok_iff {index : Nat} {vs : List Value} {fs : List Field} :
    ofElements index vs = .ok fs ↔ List.Forall₂ (fun v f => ofValue v = .ok f) vs fs := by
  induction vs generalizing index fs with
  | nil => simp [ofElements, eq_comm]
  | cons v vs ih =>
    rw [ofElements, List.forall₂_cons_left_iff]
    constructor
    · intro h
      cases hboth : ((ofValue v).under (.index index)).both (ofElements (index + 1) vs) with
      | error faults =>
        rw [hboth] at h
        cases h
      | ok p =>
        rw [hboth] at h
        cases h
        obtain ⟨hv, hvs⟩ := Checked.both_eq_ok_iff.mp hboth
        exact ⟨p.1, p.2, Checked.under_eq_ok_iff.mp hv, ih.mp hvs, rfl⟩
    · intro h
      obtain ⟨f, rest, hv, hvs, rfl⟩ := h
      rw [Checked.both_eq_ok_iff.mpr ⟨Checked.under_eq_ok_iff.mpr hv, ih.mpr hvs⟩]
      rfl

theorem optionsOfEntries_eq_ok (options : List (Text × Value)) :
    optionsOfEntries (options.map fun o => (.text o.1, o.2)) = .ok options := by
  induction options with
  | nil => rfl
  | cons o rest ih =>
    rw [List.map_cons, optionsOfEntries, ih]
    rfl

theorem ofParts_eq_ok_iff {id type options : Option Value} {fields : Checked (List Field)} {f : Field} :
    ofParts id type options fields = .ok f ↔
      ∃ i t os fs, id = some (.text i) ∧ type = some (.text t) ∧ optionsOf options = .ok os ∧ fields = .ok fs ∧
        assemble i t os fs = .ok f := by
  rw [ofParts]
  constructor
  · intro h
    split at h
    · rename_i i t os fs hparts
      rw [Checked.both_eq_ok_iff, Checked.both_eq_ok_iff, Checked.both_eq_ok_iff, Checked.text_eq_ok_iff,
        Checked.text_eq_ok_iff] at hparts
      obtain ⟨hid, htype, hoptions, hfields⟩ := hparts
      exact ⟨i, t, os, fs, hid, htype, hoptions, hfields, h⟩
    · cases h
  · intro h
    obtain ⟨i, t, os, fs, rfl, rfl, hoptions, rfl, h⟩ := h
    rw [hoptions]
    exact h

/-- Options are put together to a field at the first flag among them. -/
theorem assemble_eq_ok (id type : Text) {leading trailing : List (Text × Value)} (required : Bool) (fields : List Field)
    (hleading : ∀ o ∈ leading, o.1 ≠ flagKey) (hplain : ∀ o ∈ leading ++ trailing, o.2.isDeclaration = false) :
    assemble id type (leading ++ (flagKey, .bool required) :: trailing) fields =
      .ok (.mk id type leading required trailing fields) := by
  have hbefore : ∀ o ∈ leading, (o.1 != flagKey) = true := fun o ho => bne_iff_ne.mpr (hleading o ho)
  have hspan : (leading ++ (flagKey, .bool required) :: trailing).span (fun o : Text × Value => o.1 != flagKey) =
      (leading, (flagKey, .bool required) :: trailing) := by
    rw [List.span_eq_takeWhile_dropWhile, List.takeWhile_append_of_pos hbefore,
      List.dropWhile_append_of_pos hbefore]
    simp
  have hnone : (leading ++ trailing).find? (fun o : Text × Value => o.2.isDeclaration) = none := by
    rw [List.find?_eq_none]
    intro o ho
    rw [hplain o ho]
    exact Bool.false_ne_true
  rw [assemble, hspan]
  dsimp only
  rw [hnone]

/-- The options of a field, its flag among them, are put together to the field. -/
theorem assemble_options {f : Field} (hd : ∀ o ∈ f.options, o.2.isDeclaration = false) (hn : NamesDiffer f.settings) :
    assemble f.id f.type f.options f.fields = .ok f := by
  cases f with
  | mk id type leading required trailing fields =>
    refine assemble_eq_ok id type required fields (fun o ho => ?_) fun o ho => ?_
    · exact NamesDiffer.ne_flagKey hn (List.mem_append_left trailing ho)
    · exact hd o (List.perm_middle.symm.subset (List.mem_cons_of_mem _ ho))

/-! ## The document of a field -/

namespace Plain

variable {limits : Json.Limits} {f : Field}

theorem readable_toJson (h : f.Plain limits) : f.toJson.Readable limits := by
  induction h with
  | @mk f _ _ hoptions _ ih =>
    have hdocument : Json.Readable limits (.object (f.options.map fun o => (o.1, o.2.toJson))) :=
      .object (List.forall_mem_map.mpr fun o ho => (hoptions o ho).2.readable_toJson)
    have hfields : Json.Readable limits (.array (f.fields.map toJson)) := .array (List.forall_mem_map.mpr ih)
    rw [toJson_eq]
    refine .object ?_
    simp only [List.forall_mem_cons, List.not_mem_nil, false_imp_iff, implies_true, and_true]
    exact ⟨.text _, .text _, hdocument, hfields⟩

theorem hasLoneSurrogate_toJson (h : f.Plain limits) : f.toJson.hasLoneSurrogate = false := by
  induction h with
  | @mk f hid htype hoptions _ ih =>
    have hdocument : Json.anyLoneSurrogateIn (f.options.map fun o => (o.1, o.2.toJson)) = false :=
      Json.anyLoneSurrogateIn_eq_false_iff.mpr (List.forall_mem_map.mpr fun o ho =>
        ⟨(hoptions o ho).1, (hoptions o ho).2.hasLoneSurrogate_toJson⟩)
    have hfields : Json.anyLoneSurrogate (f.fields.map toJson) = false :=
      Json.anyLoneSurrogate_eq_false_iff.mpr (List.forall_mem_map.mpr ih)
    rw [toJson_eq]
    simp only [Json.hasLoneSurrogate, Json.anyLoneSurrogateIn, hid, htype, hdocument, hfields]
    rfl

/-- No member of the document has a key of another. -/
theorem merged_toJson (h : f.Plain limits) (hk : f.WellKeyed) : f.toJson.merged = f.toJson := by
  induction h with
  | @mk f _ _ hoptions _ ih =>
    have hnodup : ((f.options.map fun o => (o.1, o.2.toJson)).map Prod.fst).Nodup := by
      rw [List.map_map]
      exact hk.nodup_options
    have hdocument : Json.merged (.object (f.options.map fun o => (o.1, o.2.toJson))) =
        .object (f.options.map fun o => (o.1, o.2.toJson)) :=
      Json.merged_object (List.forall_mem_map.mpr fun o ho => (hoptions o ho).2.merged_toJson (hk.options o ho)) hnodup
    have hfields : Json.merged (.array (f.fields.map toJson)) = .array (f.fields.map toJson) :=
      Json.merged_array (List.forall_mem_map.mpr fun g hg => ih g hg (hk.fields g hg))
    rw [toJson_eq]
    refine Json.merged_object ?_ (by simp only [List.map_cons, List.map_nil]; decide)
    simp only [List.forall_mem_cons, List.not_mem_nil, false_imp_iff, implies_true, and_true]
    exact ⟨rfl, rfl, hdocument, hfields⟩

theorem levels_le (h : f.Plain limits) : f.levels ≤ f.toJson.depth := by
  induction h with
  | @mk f _ _ hoptions _ ih =>
    rw [toJson_eq, Json.depth, Nat.add_comm, levels_le_iff]
    simp only [Json.mostMemberDepth, Json.depth]
    constructor
    · intro o ho
      have hvalue := (hoptions o ho).2.levels_le
      have hmost := Json.mostMemberDepth_le_iff.mp (Nat.le_refl _) (o.1, o.2.toJson)
        (List.mem_map_of_mem (f := fun o => (o.1, o.2.toJson)) ho)
      dsimp only at hmost
      omega
    · intro g hg
      have hfield := ih g hg
      have hmost := Json.mostDepth_le_iff.mp (Nat.le_refl _) g.toJson (List.mem_map_of_mem hg)
      omega

theorem hasFixed (h : f.Plain limits) : f.hasFixed = false := by
  induction h with
  | mk _ _ hoptions _ ih => exact hasFixed_eq_false_iff.mpr ⟨fun o ho => (hoptions o ho).2.hasFixed, ih⟩

/-! ## The field of a document -/

theorem ofElements_eq_ok {fs : List Field} (h : ∀ f ∈ fs, ofValue (Value.ofJson f.toJson) = .ok f) :
    ofElements 0 (Value.ofJson.ofElements (fs.map toJson)) = .ok fs := by
  rw [Value.ofElements_eq_map, List.map_map, ofElements_eq_ok_iff, List.forall₂_map_left_iff, List.forall₂_same]
  exact h

/-- The document of a plain field describes the field. -/
theorem ofValue_ofJson (h : f.Plain limits) (hk : f.WellKeyed) : ofValue (Value.ofJson f.toJson) = .ok f := by
  induction h with
  | @mk f hid htype hoptions hfields ih =>
    have hbelow : ofElements 0 (Value.ofJson.ofElements (f.fields.map toJson)) = .ok f.fields :=
      ofElements_eq_ok fun g hg => ih g hg (hk.fields g hg)
    have hentries : optionsOfEntries (Value.ofJson.ofMembers (f.options.map fun o => (o.1, o.2.toJson))) =
        .ok f.options := by
      rw [Value.ofMembers_eq_map, List.map_map, ← optionsOfEntries_eq_ok f.options]
      refine congrArg optionsOfEntries (List.map_congr_left fun o ho => ?_)
      exact congrArg (Value.text o.1, ·) (hoptions o ho).2.ofJson_toJson
    have hassemble := assemble_options (fun o ho => (hoptions o ho).2.isDeclaration) hk.namesDiffer
    have hparts : ofValue (Value.ofJson f.toJson) =
        ofParts (some (.text f.id)) (some (.text f.type))
          (some (.dict (Value.ofJson.ofMembers (f.options.map fun o => (o.1, o.2.toJson)))))
          ((ofElements 0 (Value.ofJson.ofElements (f.fields.map toJson))).under (.name "fields")) := by
      rw [toJson_eq]
      rfl
    rw [hparts, hbelow, ofParts, optionsOf, hentries]
    exact hassemble

end Plain

end Field

/-! ## Forests -/

namespace Forest

/-- The document of a forest. -/
def document (forest : List Field) : Json := .array (Field.allToJson forest)

/-- A forest that a text can keep: it is plain, no key stands in a dictionary twice, and its
    document nests no deeper than what is read. -/
structure Savable (forest : List Field) : Prop where
  plain : ∀ f ∈ forest, f.Plain (jsonLimits 0)
  wellKeyed : ∀ f ∈ forest, f.WellKeyed
  depth_le : (document forest).depth ≤ (jsonLimits 0).depth

namespace Savable

variable {forest : List Field}

theorem readable (h : Savable forest) : (document forest).Readable (jsonLimits 0) := by
  rw [document, Field.allToJson_eq_map]
  exact .array (List.forall_mem_map.mpr fun f hf => (h.plain f hf).readable_toJson)

theorem hasLoneSurrogate (h : Savable forest) : (document forest).hasLoneSurrogate = false := by
  rw [document, Field.allToJson_eq_map, Json.hasLoneSurrogate, Json.anyLoneSurrogate_eq_false_iff]
  exact List.forall_mem_map.mpr fun f hf => (h.plain f hf).hasLoneSurrogate_toJson

theorem merged (h : Savable forest) : (document forest).merged = document forest := by
  rw [document, Field.allToJson_eq_map]
  exact Json.merged_array
    (List.forall_mem_map.mpr fun f hf => (h.plain f hf).merged_toJson (h.wellKeyed f hf))

/-- What is read as deep as documents may be can also be saved. -/
theorem mostLevels_le (h : Savable forest) : Field.mostLevels forest ≤ mostLevels := by
  have hdepth := h.depth_le
  rw [document, Field.allToJson_eq_map, Json.depth] at hdepth
  refine Field.mostLevels_le_iff.mpr fun f hf => ?_
  have hfield := (h.plain f hf).levels_le
  have hmost := Json.mostDepth_le_iff.mp (Nat.le_refl _) f.toJson (List.mem_map_of_mem hf)
  have hlimit : (jsonLimits 0).depth ≤ mostLevels := by decide
  omega

theorem dump_eq (h : Savable forest) (indent : Option Nat) :
    dump indent forest = .ok ((document forest).write indent) := by
  have hfixed : Field.anyFixed forest = false := Field.anyFixed_eq_false_iff.mpr fun f hf => (h.plain f hf).hasFixed
  have hlone : (Json.array (Field.allToJson forest)).hasLoneSurrogate = false := h.hasLoneSurrogate
  rw [dump, if_neg (Nat.not_lt.mpr h.mostLevels_le), hfixed, hlone]
  rfl

/-- The document of a forest describes the forest. -/
theorem ofDocument_eq (h : Savable forest) : ofDocument (document forest) = .ok forest := by
  rw [document, Field.allToJson_eq_map, ofDocument]
  exact Field.Plain.ofElements_eq_ok fun f hf => (h.plain f hf).ofValue_ofJson (h.wellKeyed f hf)

theorem load_write (h : Savable forest) (indent : Option Nat) :
    load ((document forest).write indent) = .ok forest := by
  have hlone : ((document forest).write indent).hasLoneSurrogate = false := by
    rw [Json.write, Json.hasLoneSurrogate_writeAt, h.hasLoneSurrogate]
  have hplaces : (jsonLimits 0).Takes 17 := by
    intro most hmost
    cases hmost
    decide
  have hread := Json.read_write hplaces h.readable h.depth_le indent
  rw [load, loadMarked, hlone, hread]
  dsimp only
  rw [h.hasLoneSurrogate, h.merged, h.ofDocument_eq]
  rfl

end Savable

/-- A forest that a text can keep is saved, compact or indented, its text is loaded as the same
    forest, and what is loaded from it is saved as the same text. -/
theorem load_dump {forest : List Field} (h : Savable forest) (indent : Option Nat) :
    ∃ text, dump indent forest = .ok text ∧ load text = .ok forest ∧
      ∀ again, load text = .ok again → dump indent again = .ok text := by
  refine ⟨(document forest).write indent, h.dump_eq indent, h.load_write indent, fun again hagain => ?_⟩
  rw [h.load_write indent] at hagain
  cases hagain
  exact h.dump_eq indent

/-- A field below another, with a list, a dictionary and a negative zero among the options. -/
def nested : List Field :=
  [.mk "a" "map" [("only", .list [.int (-3), .none, .text "b"])] true
    [("rest", .dict [(.text "x", .float (.finite true .zero))])] [.mk "b" "int" [] false [] []]]

theorem savable_nested : Savable nested where
  plain := by
    have hint : (jsonLimits 0).Admits (-3) := by
      refine ⟨by decide, fun places hplaces => ?_⟩
      cases hplaces
      decide
    have hlist : (Value.list [.int (-3), .none, .text "b"]).Plain (jsonLimits 0) := by
      refine .list fun x hx => ?_
      simp only [List.mem_cons, List.not_mem_nil, or_false] at hx
      rcases hx with rfl | rfl | rfl
      · exact .int hint
      · exact .none
      · exact .text rfl
    have hdict : (Value.dict [(.text "x", .float (.finite true .zero))]).Plain (jsonLimits 0) := by
      refine .dict ?_ ?_ <;> simp only [List.forall_mem_singleton]
      · exact ⟨"x", rfl, rfl⟩
      · exact .float true .zero
    have hbelow : Field.Plain (jsonLimits 0) (.mk "b" "int" [] false [] []) := by
      refine .mk rfl rfl ?_ fun g hg => by cases hg
      simp only [Field.options, List.nil_append, List.forall_mem_singleton]
      exact ⟨rfl, .bool false⟩
    refine List.forall_mem_singleton.mpr (.mk rfl rfl ?_ ?_)
    · simp only [Field.options, List.singleton_append, List.forall_mem_cons]
      exact ⟨⟨rfl, hlist⟩, ⟨rfl, .bool true⟩, ⟨rfl, hdict⟩, fun o ho => by cases ho⟩
    · exact List.forall_mem_singleton.mpr hbelow
  wellKeyed := by
    have hnames : NamesDiffer [("only", .list [.int (-3), .none, .text "b"]),
        ("rest", .dict [(.text "x", .float (.finite true .zero))])] := by
      unfold NamesDiffer
      decide
    have hnone : NamesDiffer [] := by
      unfold NamesDiffer
      decide
    refine List.forall_mem_singleton.mpr ⟨hnames, ?_⟩
    simp [Field.WellKeyed, Field.AllWellKeyed, Value.OptionsWellKeyed, Value.WellKeyed, Value.AllWellKeyed,
      Value.EntriesWellKeyed, KeysDiffer, hnone]
  depth_le := by decide

theorem load_dump_nested :
    ∃ text, dump (some 2) nested = .ok text ∧ load text = .ok nested ∧
      ∀ again, load text = .ok again → dump (some 2) again = .ok text :=
  load_dump savable_nested (some 2)

end Forest

end FieldForest
