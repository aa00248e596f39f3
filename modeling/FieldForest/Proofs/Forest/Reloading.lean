/-
  FieldForest.Proofs.Forest.Reloading — which forests that are read from text are saved and loaded again.

  A forest of a document holds nothing that JSON has no form for, but three limits stand
  between it and its reload, and the limit on nesting of declarations is none of them. What is
  saved holds no half of a surrogate pair; what is loaded nests 200 levels deep, and a field
  takes two of them; and it has at most 4300 places in front of a number's point, the sign
  included, where a declaration has so many digits. Within these limits a forest comes back,
  with `none` for the numbers that are infinite or none.

  Proved:
  - `toJson_ofJson` / `plain_ofJson` / `wellKeyed_ofJson`: a document and the value it stands for.
  - `Documented.toJson_reread` / `Documented.plain_reread`: what a field is once it is loaded.
  - `dump_eq_ok_iff` / `load_write_iff`: what is saved, and what of it is loaded.
  - `saved_and_loaded_iff`: so a forest that is read is saved and loaded exactly within the limits.
  - `tower_unloaded`: 150 fields, each below the last, are saved and cannot be loaded.
-/
import FieldForest.Proofs.Forest.Documents
import FieldForest.Proofs.Forest.RoundTrip

namespace FieldForest

/-! ## A document and the value it stands for -/

namespace Json

/-- What is written of a merged document is merged. -/
theorem merged_finite {x : Json} (h : x.merged = x) : x.finite.merged = x.finite := by
  induction x using Json.induction with
  | float x => cases x <;> rfl
  | array elements ih =>
    have helements := merged_array_eq_iff.mp h
    rw [finite_array]
    exact merged_array (List.forall_mem_map.mpr fun x hx => ih x hx (helements x hx))
  | object members ih =>
    obtain ⟨hnodup, hvalues⟩ := merged_object_eq_iff.mp h
    rw [finite_object]
    refine merged_object (List.forall_mem_map.mpr fun m hm => ih m hm (hvalues m hm)) ?_
    rwa [List.map_map]
  | _ => rfl

end Json

namespace Value

variable {limits : Json.Limits}

theorem plain_ofJson {x : Json} (h : x.Readable limits) (hlone : x.hasLoneSurrogate = false) :
    (ofJson x).Plain limits := by
  induction h with
  | null => exact .none
  | bool b => exact .bool b
  | int hn => exact .int hn
  | float negative size => exact .float negative size
  | text t => exact .text hlone
  | @array elements _ ih =>
    have helements := Json.anyLoneSurrogate_eq_false_iff.mp hlone
    rw [ofJson, ofElements_eq_map]
    exact .list (List.forall_mem_map.mpr fun x hx => ih x hx (helements x hx))
  | @object members _ ih =>
    have hmembers := Json.anyLoneSurrogateIn_eq_false_iff.mp hlone
    rw [ofJson, ofMembers_eq_map]
    refine .dict (List.forall_mem_map.mpr fun m hm => ?_) (List.forall_mem_map.mpr fun m hm => ?_)
    · exact ⟨m.1, rfl, (hmembers m hm).1⟩
    · exact ih m hm (hmembers m hm).2

/-- A merged document stands for a value in which no key stands twice. -/
theorem wellKeyed_ofJson {x : Json} (h : x.merged = x) : (ofJson x).WellKeyed := by
  induction x using Json.induction with
  | array elements ih =>
    have helements := Json.merged_array_eq_iff.mp h
    rw [ofJson, ofElements_eq_map]
    exact allWellKeyed_iff.mpr (List.forall_mem_map.mpr fun x hx => ih x hx (helements x hx))
  | object members ih =>
    obtain ⟨hnodup, hvalues⟩ := Json.merged_object_eq_iff.mp h
    rw [ofJson, ofMembers_eq_map]
    constructor
    · rw [List.Nodup, List.pairwise_map] at hnodup
      exact List.pairwise_map.mpr (hnodup.imp fun h => by simpa [same] using h)
    · exact entriesWellKeyed_iff.mpr (List.forall_mem_map.mpr fun m hm => ⟨trivial, ih m hm (hvalues m hm)⟩)
  | _ => trivial

/-- What a value is once it is saved and loaded. -/
def reread (v : Value) : Value := ofJson v.toJson.finite

end Value

/-! ## Fields of documents -/

namespace Field

mutual

/-- What a field is once it is saved and loaded. -/
def reread : Field → Field
  | .mk id type leading required trailing fields =>
    .mk id type (leading.map fun o => (o.1, o.2.reread)) required (trailing.map fun o => (o.1, o.2.reread))
      (rereadAll fields)

def rereadAll : List Field → List Field
  | [] => []
  | f :: fs => reread f :: rereadAll fs

end

theorem rereadAll_eq_map (fs : List Field) : rereadAll fs = fs.map reread := by
  induction fs with
  | nil => rfl
  | cons f fs ih => rw [rereadAll, ih, List.map_cons]

section

variable {id type : Text} {members : List (Text × Json)} {required : Bool} {fields : List Field}

theorem toJson_documented :
    (Field.mk id type (optionsOfMembers members) required [] fields).toJson =
      .object [("id", .text id), ("type", .text type), ("options", .object (members ++ [(flagKey, .bool required)])),
        ("fields", .array (fields.map toJson))] := by
  have hoptions : (optionsOfMembers members).map (fun o => (o.1, o.2.toJson)) = members := by
    rw [optionsOfMembers, List.map_map]
    refine (List.map_congr_left fun m _ => ?_).trans (List.map_id members)
    exact congrArg (m.1, ·) (Value.toJson_ofJson m.2)
  rw [toJson_eq]
  simp only [options, List.map_append, List.map_cons, List.map_nil, hoptions]
  rfl

theorem reread_documented :
    (Field.mk id type (optionsOfMembers members) required [] fields).reread =
      .mk id type (optionsOfMembers (members.map fun m => (m.1, m.2.finite))) required [] (fields.map reread) := by
  have hoptions : (optionsOfMembers members).map (fun o => (o.1, o.2.reread)) =
      optionsOfMembers (members.map fun m => (m.1, m.2.finite)) := by
    simp only [optionsOfMembers, List.map_map]
    refine List.map_congr_left fun m _ => ?_
    simp only [Function.comp_apply, Value.reread, Value.toJson_ofJson]
  rw [reread, hoptions, rereadAll_eq_map, List.map_nil]

end

namespace Documented

variable {P : Json → Prop} {limits : Json.Limits} {f : Field}

theorem toJson_reread (h : f.Documented P) : f.reread.toJson = f.toJson.finite := by
  induction h with
  | @mk id type members required fields _ _ _ _ _ ih =>
    have hfields : ∀ g ∈ fields, (toJson ∘ reread) g = (Json.finite ∘ toJson) g := ih
    rw [reread_documented, toJson_documented, toJson_documented, Json.finite_object]
    simp only [List.map_cons, List.map_nil, Json.finite_object, Json.finite_array, List.map_append, List.map_map]
    rw [List.map_congr_left hfields]
    rfl

theorem hasFixed (h : f.Documented P) : f.hasFixed = false := by
  induction h with
  | @mk id type members required fields _ _ _ _ _ ih =>
    refine hasFixed_eq_false_iff.mpr ⟨?_, ih⟩
    simp only [options, optionsOfMembers, List.forall_mem_append, List.forall_mem_map, List.forall_mem_cons]
    exact ⟨fun m _ => Value.hasFixed_ofJson m.2, rfl, List.forall_mem_nil _⟩

/-- A field takes no more levels than its document is deep. -/
theorem levels_le (h : f.Documented P) : f.levels ≤ f.toJson.depth := by
  induction h with
  | @mk id type members required fields _ _ _ _ _ ih =>
    rw [toJson_documented, Json.depth, Nat.add_comm, levels_le_iff]
    simp only [Json.mostMemberDepth, Json.depth]
    constructor
    · intro o ho
      rcases List.mem_append.mp ho with ho | ho
      · obtain ⟨m, hm, rfl⟩ := List.mem_map.mp ho
        have hvalue := Value.levels_ofJson_le m.2
        have hmost := Json.mostMemberDepth_le_iff.mp (Nat.le_refl _) m
          (List.mem_append_left [(flagKey, .bool required)] hm)
        dsimp only
        omega
      · obtain rfl := List.mem_singleton.mp ho
        show 1 ≤ _
        omega
    · intro g hg
      have hg : g ∈ fields := hg
      have hfield := ih g hg
      have hmost := Json.mostDepth_le_iff.mp (Nat.le_refl _) g.toJson (List.mem_map_of_mem hg)
      omega

/-- A field is plain once it is loaded, if its document can be read and written. -/
theorem plain_reread (h : f.Documented P) (hreadable : f.toJson.finite.Readable limits)
    (hlone : f.toJson.hasLoneSurrogate = false) : f.reread.Plain limits := by
  induction h with
  | @mk id type members required fields _ _ _ _ _ ih =>
    rw [toJson_documented] at hreadable hlone
    rw [Json.finite_object] at hreadable
    have hlone := Json.anyLoneSurrogateIn_eq_false_iff.mp hlone
    have hreadable := hreadable.members
    simp only [List.map_cons, List.forall_mem_cons] at hlone hreadable
    obtain ⟨⟨-, hid⟩, ⟨-, htype⟩, ⟨-, hoptions⟩, ⟨-, hfields⟩, -⟩ := hlone
    obtain ⟨-, -, hreadableOptions, hreadableFields, -⟩ := hreadable
    rw [Json.finite_object] at hreadableOptions
    rw [Json.finite_array, List.map_map] at hreadableFields
    have hoptions := Json.anyLoneSurrogateIn_eq_false_iff.mp hoptions
    have hfields := List.forall_mem_map.mp (Json.anyLoneSurrogate_eq_false_iff.mp hfields)
    have hreadableFields := List.forall_mem_map.mp hreadableFields.elements
    rw [reread_documented]
    refine .mk hid htype ?_ (List.forall_mem_map.mpr fun g hg => ih g hg (hreadableFields g hg) (hfields g hg))
    rw [List.forall_mem_append] at hoptions
    have hreadableOptions := List.forall_mem_map.mp hreadableOptions.members
    rw [List.forall_mem_append] at hreadableOptions
    simp only [options, optionsOfMembers, List.map_map, List.forall_mem_append, List.forall_mem_map,
      List.forall_mem_singleton]
    refine ⟨fun m hm => ⟨(hoptions.1 m hm).1, ?_⟩, rfl, .bool required⟩
    refine Value.plain_ofJson (hreadableOptions.1 m hm) ?_
    rw [Json.hasLoneSurrogate_finite]
    exact (hoptions.1 m hm).2

theorem wellKeyed_reread (h : f.Documented fun x => x.merged = x) : f.reread.WellKeyed := by
  induction h with
  | @mk id type members required fields _ _ hmembers hflag _ ih =>
    obtain ⟨hnodup, hvalues⟩ := Json.merged_object_eq_iff.mp hmembers
    have hnames : NamesDiffer (optionsOfMembers (members.map fun m => (m.1, m.2.finite))) := by
      unfold NamesDiffer optionsOfMembers
      rw [List.map_map, List.map_map, List.nodup_cons]
      refine ⟨fun hmem => ?_, hnodup⟩
      obtain ⟨m, hm, hkey⟩ := List.mem_map.mp hmem
      exact hflag m hm hkey
    rw [reread_documented, WellKeyed, List.append_nil]
    refine ⟨hnames, Value.optionsWellKeyed_iff.mpr ?_, trivial, allWellKeyed_iff.mpr (List.forall_mem_map.mpr ih)⟩
    unfold optionsOfMembers
    rw [List.map_map]
    exact List.forall_mem_map.mpr fun m hm => Value.wellKeyed_ofJson (Json.merged_finite (hvalues m hm))

end Documented

end Field

/-! ## Forests of documents -/

namespace Forest

variable {P : Json → Prop} {forest : List Field}

theorem document_reread (h : ∀ f ∈ forest, f.Documented P) :
    document (forest.map Field.reread) = (document forest).finite := by
  have hfields : ∀ f ∈ forest, (Field.toJson ∘ Field.reread) f = (Json.finite ∘ Field.toJson) f := fun f hf =>
    (h f hf).toJson_reread
  rw [document, document, Field.allToJson_eq_map, Field.allToJson_eq_map, Json.finite_array, List.map_map,
    List.map_map, List.map_congr_left hfields]

/-- A forest of a document is saved if no half of a surrogate pair stands in it and it takes not
    too many levels. -/
theorem dump_eq_ok_iff (h : ∀ f ∈ forest, f.Documented P) {indent : Option Nat} {text : Text} :
    dump indent forest = .ok text ↔
      Field.mostLevels forest ≤ mostLevels ∧ (document forest).hasLoneSurrogate = false ∧
        text = (document forest).write indent := by
  have hfixed : Field.anyFixed forest = false := Field.anyFixed_eq_false_iff.mpr fun f hf => (h f hf).hasFixed
  have hdocument : Json.array (Field.allToJson forest) = document forest := rfl
  unfold dump
  rw [hdocument, hfixed]
  dsimp only
  by_cases hlevels : mostLevels < Field.mostLevels forest
  · rw [if_pos hlevels]
    exact iff_of_false nofun fun hle => absurd hle.1 (by omega)
  · rw [if_neg hlevels]
    cases (document forest).hasLoneSurrogate with
    | true => exact iff_of_false nofun fun hlone => nomatch hlone.2.1
    | false =>
      constructor
      · rintro ⟨⟩
        exact ⟨by omega, rfl, rfl⟩
      · rintro ⟨-, -, rfl⟩
        rfl

/-- Once it is loaded, a forest of a document can be saved and loaded as it is. -/
theorem savable_reread (h : ∀ f ∈ forest, f.Documented fun x => x.merged = x)
    (hlone : (document forest).hasLoneSurrogate = false) (hdepth : (document forest).depth ≤ (jsonLimits 0).depth)
    (hreadable : (document forest).finite.Readable (jsonLimits 0)) : Savable (forest.map Field.reread) where
  plain := by
    rw [document, Field.allToJson_eq_map] at hlone hreadable
    have hlone := Json.anyLoneSurrogate_eq_false_iff.mp hlone
    rw [Json.finite_array, List.map_map] at hreadable
    have hreadable := hreadable.elements
    rw [List.forall_mem_map] at hlone hreadable ⊢
    exact fun f hf => (h f hf).plain_reread (hreadable f hf) (hlone f hf)
  wellKeyed := List.forall_mem_map.mpr fun f hf => (h f hf).wellKeyed_reread
  depth_le := by
    rw [document_reread h, Json.depth_finite]
    exact hdepth

/-- What is written for a forest of a document is loaded, as the forest that it then is, exactly if
    the document keeps within the limits of the reader. -/
theorem load_write_iff (h : ∀ f ∈ forest, f.Documented fun x => x.merged = x)
    (hlone : (document forest).hasLoneSurrogate = false) (indent : Option Nat) (again : List Field) :
    load ((document forest).write indent) = .ok again ↔
      (document forest).depth ≤ (jsonLimits 0).depth ∧ (document forest).finite.Readable (jsonLimits 0) ∧
        again = forest.map Field.reread := by
  have hplaces : (jsonLimits 0).Takes 17 := by
    intro most hmost
    cases hmost
    decide
  have hloaded (hdepth : (document forest).depth ≤ (jsonLimits 0).depth)
      (hreadable : (document forest).finite.Readable (jsonLimits 0)) :
      load ((document forest).write indent) = .ok (forest.map Field.reread) := by
    have hload := (savable_reread h hlone hdepth hreadable).load_write indent
    rwa [document_reread h, Json.write_finite] at hload
  constructor
  · intro hload
    have hread : ∃ x, Json.read (jsonLimits 0) ((document forest).write indent) = .ok x := by
      rw [load, loadMarked, Json.write, Json.hasLoneSurrogate_writeAt, hlone, ← Json.write] at hload
      cases hread : Json.read (jsonLimits 0) ((document forest).write indent) with
      | ok x => exact ⟨x, rfl⟩
      | error e =>
        rw [hread] at hload
        cases hload
    obtain ⟨x, hread⟩ := hread
    obtain ⟨hdepth, hreadable, -⟩ := (Json.read_write_eq_ok_iff hplaces _ _ _).mp hread
    exact ⟨hdepth, hreadable, Except.ok.inj (hload.symm.trans (hloaded hdepth hreadable))⟩
  · rintro ⟨hdepth, hreadable, rfl⟩
    exact hloaded hdepth hreadable

/-- What is read as deep as documents may be can also be saved. -/
theorem mostLevels_le_of_depth (h : ∀ f ∈ forest, f.Documented P)
    (hdepth : (document forest).depth ≤ (jsonLimits 0).depth) : Field.mostLevels forest ≤ mostLevels := by
  refine Field.mostLevels_le_iff.mpr fun f hf => ?_
  rw [document, Field.allToJson_eq_map, Json.depth] at hdepth
  have hfield := (h f hf).levels_le
  have hmost := Json.mostDepth_le_iff.mp (Nat.le_refl _) f.toJson (List.mem_map_of_mem hf)
  have hlimit : (jsonLimits 0).depth ≤ mostLevels := by decide
  omega

/-- A forest that is read from text is saved exactly if no half of a surrogate pair stands in it and
    it takes at most 254 levels. It can then be loaded exactly if its document nests at most 200
    levels deep and no whole number in it has more than 4300 places, the sign included; and it
    comes back as it is, but for the numbers that are infinite or none. -/
theorem saved_and_loaded_iff {stack : Declaration.Stack} {depth : Option Int} {source : Text} {forest : List Field}
    (h : (Declaration.readForest stack depth source).result = .ok forest) (indent : Option Nat) :
    ((∃ text, dump indent forest = .ok text) ↔
        Field.mostLevels forest ≤ 254 ∧ (document forest).hasLoneSurrogate = false) ∧
      ((∃ text, dump indent forest = .ok text ∧ ∃ again, load text = .ok again) ↔
        (document forest).hasLoneSurrogate = false ∧ (document forest).depth ≤ 200 ∧
          (document forest).finite.Readable (jsonLimits 0)) ∧
      ∀ text again, dump indent forest = .ok text → load text = .ok again → again = forest.map Field.reread := by
  obtain ⟨source, d, limit, -, hd, hbuilds⟩ := Declaration.exists_document_of_readForest h
  have hdocumented := Declaration.documented_of_builds Json.inherited_merged (Json.merged_merged source) hd hbuilds
  refine ⟨⟨?_, ?_⟩, ⟨?_, ?_⟩, ?_⟩
  · rintro ⟨text, hdump⟩
    obtain ⟨hlevels, hlone, -⟩ := (dump_eq_ok_iff hdocumented).mp hdump
    exact ⟨hlevels, hlone⟩
  · rintro ⟨hlevels, hlone⟩
    exact ⟨_, (dump_eq_ok_iff hdocumented).mpr ⟨hlevels, hlone, rfl⟩⟩
  · rintro ⟨text, hdump, again, hload⟩
    obtain ⟨-, hlone, rfl⟩ := (dump_eq_ok_iff hdocumented).mp hdump
    obtain ⟨hdepth, hreadable, -⟩ := (load_write_iff hdocumented hlone indent again).mp hload
    exact ⟨hlone, hdepth, hreadable⟩
  · rintro ⟨hlone, hdepth, hreadable⟩
    have hlevels : Field.mostLevels forest ≤ mostLevels := mostLevels_le_of_depth hdocumented hdepth
    refine ⟨_, (dump_eq_ok_iff hdocumented).mpr ⟨hlevels, hlone, rfl⟩, forest.map Field.reread, ?_⟩
    exact (load_write_iff hdocumented hlone indent _).mpr ⟨hdepth, hreadable, rfl⟩
  · intro text again hdump hload
    obtain ⟨-, hlone, rfl⟩ := (dump_eq_ok_iff hdocumented).mp hdump
    exact ((load_write_iff hdocumented hlone indent again).mp hload).2.2

/-! ## Fields that each stand below the last -/

/-- A field with `n` fields below it, each below the last. -/
def tower : Nat → Field
  | 0 => .mk "a" "map" [] true [] []
  | n + 1 => .mk "a" "map" [] true [] [tower n]

def towerCall : Nat → Call
  | 0 => .bare .requires (.text "a") (.text "map")
  | n + 1 => .composite .requires (.text "a") (.text "map") (.one (towerCall n))

def towerStatement : Nat → Statement
  | 0 => ⟨"requires", [.text "a", .text "map"]⟩
  | n + 1 => ⟨"requires", [.text "a", .text "map", .nested (.single (towerStatement n).item)]⟩

theorem towerCall_makes (n : Nat) : (towerCall n).item? = .ok (towerStatement n).item := by
  induction n with
  | zero => rfl
  | succ n ih =>
    rw [towerCall, Call.item?, Call.bodyValue?, ih]
    rfl

theorem plain_towerCall (limits : Json.Limits) (n : Nat) : (towerCall n).Plain limits := by
  induction n with
  | zero => exact ⟨.text _, .text _⟩
  | succ n ih => exact ⟨.text _, .text _, ih⟩

theorem levels_towerCall (n : Nat) : (towerCall n).levels = n + 1 := by
  induction n with
  | zero => rfl
  | succ n ih =>
    rw [towerCall, Call.levels, Call.bodyLevels, ih]
    omega

theorem depth_form_towerCall (n : Nat) : (towerCall n).form.depth = 3 * n + 2 := by
  induction n with
  | zero => rfl
  | succ n ih =>
    simp only [towerCall, Call.form, Call.bodyForm, Json.depth, Json.mostDepth, Json.mostMemberDepth, ih]
    omega

theorem statements_towerStatement (n : Nat) :
    (Declaration.single (towerStatement n).item).statements = [towerStatement n] := by
  rw [Declaration.statements, Declaration.items]
  exact Statement.allStatements_map_item [towerStatement n]

/-- The statement is sound if none in it stands below the limit. -/
theorem sound_towerStatement {limit : Nesting.Limit} {n depth : Nat} (h : depth + n ≤ limit.depth) :
    (towerStatement n).Sound limit depth := by
  induction n generalizing depth with
  | zero =>
    show Statement.Sound limit depth ⟨Keyword.requires.name, [.text "a", .text "map"]⟩
    exact .bare h (by decide) (by decide)
  | succ n ih =>
    have hbody : ∀ s ∈ (Declaration.single (towerStatement n).item).statements, s.Sound limit (depth + 1) := by
      rw [statements_towerStatement, List.forall_mem_singleton]
      exact ih (by omega)
    show Statement.Sound limit depth
      ⟨Keyword.requires.name, [.text "a", .text "map", .nested (.single (towerStatement n).item)]⟩
    refine .composite (by omega) (by decide) (by decide) ?_ hbody ?_
    · rw [statements_towerStatement]
      exact List.cons_ne_nil _ _
    · rw [statements_towerStatement]
      exact List.pairwise_singleton _ _

theorem field_towerStatement (n : Nat) : (towerStatement n).field = tower n := by
  induction n with
  | zero => exact Statement.field_bare .requires "a" "map"
  | succ n ih =>
    have hfield := Statement.field_composite .requires "a" "map" (.single (towerStatement n).item)
    rw [statements_towerStatement, List.map_singleton, ih] at hfield
    exact hfield

/-- The fields are read from text, as many as the deepest level allows. -/
theorem readForest_tower {n : Nat} (h : n < 200) (indent : Option Nat) :
    (Declaration.readForest .usual (some 200) ((towerCall n).form.write indent)).result = .ok [tower n] := by
  have hplain := plain_towerCall Declaration.Stack.usual.jsonLimits n
  have hlevels : (towerCall n).levels ≤ Nesting.most := by
    rw [levels_towerCall]
    exact h
  have hdepth : (towerCall n).form.depth ≤ Declaration.Stack.usual.json := by
    have hjson : Declaration.Stack.usual.json = 946 := rfl
    rw [depth_form_towerCall, hjson]
    omega
  have hcalls : Declaration.isBeyond Declaration.Stack.usual.calls (towerCall n).form.depth = false :=
    Declaration.Stack.calls_shared hdepth
  have hread : Declaration.read .usual ((towerCall n).form.write indent) = .ok (.single (towerStatement n).item) := by
    rcases Call.read_of_form hplain hlevels (towerCall_makes n) (Call.documentText_write_form rfl hplain indent) hdepth with
      hread | ⟨hbeyond, -⟩
    · exact hread
    · cases hcalls.symm.trans hbeyond
  let limit : Nesting.Limit := ⟨200, by decide, by decide⟩
  have hlimit : Nesting.Limit.given (some 200) = .ok limit := rfl
  have hbuilds : ((Declaration.single (towerStatement n).item).toValue.buildForest limit).result = .ok [tower n] := by
    refine (Value.builds_iff_statements _ _ _).mpr ⟨[towerStatement n], ?_, ?_, List.pairwise_singleton _ _, ?_⟩
    · rw [Value.statements?_toValue, statements_towerStatement]
    · exact List.forall_mem_singleton.mpr (sound_towerStatement (show 1 + n ≤ 200 by omega))
    · rw [List.map_singleton, field_towerStatement]
  rw [Call.result_readForest, hread]
  simp only [Value.declaredForest, hlimit, Traced.result_bind_eq_ok, Traced.result_ofExcept, Traced.result_mapError,
    mapError_eq_ok_iff, Except.ok.injEq, exists_eq_left', hbuilds]

theorem toJson_tower (n : Nat) :
    (tower (n + 1)).toJson = .object [("id", .text "a"), ("type", .text "map"),
      ("options", .object [(Field.flagKey, .bool true)]), ("fields", .array [(tower n).toJson])] := rfl

/-- Each field takes two levels of its document. -/
theorem depth_tower (n : Nat) : (tower n).toJson.depth = 2 * n + 2 := by
  induction n with
  | zero => rfl
  | succ n ih =>
    rw [toJson_tower]
    simp only [Json.depth, Json.mostMemberDepth, Json.mostDepth, ih]
    omega

theorem levels_tower (n : Nat) : (tower n).levels = n + 2 := by
  induction n with
  | zero => rfl
  | succ n ih =>
    rw [tower, Field.levels, Field.mostLevels, ih]
    simp only [Value.mostOptionLevels, Field.mostLevels]
    omega

theorem plain_tower (n : Nat) : (tower n).Plain (jsonLimits 0) := by
  have hoptions (f : Field) (h : f.options = [(Field.flagKey, .bool true)]) :
      ∀ o ∈ f.options, o.1.hasLoneSurrogate = false ∧ o.2.Plain (jsonLimits 0) := by
    rw [h]
    exact List.forall_mem_singleton.mpr ⟨rfl, .bool true⟩
  induction n with
  | zero => exact .mk rfl rfl (hoptions _ rfl) (List.forall_mem_nil _)
  | succ n ih => exact .mk rfl rfl (hoptions _ rfl) (List.forall_mem_singleton.mpr ih)

theorem documented_tower (n : Nat) : (tower n).Documented fun x => x.merged = x := by
  induction n with
  | zero =>
    show Field.Documented _ (.mk "a" "map" (optionsOfMembers []) true [] [])
    exact .mk rfl rfl rfl (List.forall_mem_nil _) (List.forall_mem_nil _)
  | succ n ih =>
    show Field.Documented _ (.mk "a" "map" (optionsOfMembers []) true [] [tower n])
    exact .mk rfl rfl rfl (List.forall_mem_nil _) (List.forall_mem_singleton.mpr ih)

theorem hasLoneSurrogate_tower (n : Nat) : (document [tower n]).hasLoneSurrogate = false :=
  Json.anyLoneSurrogate_eq_false_iff.mpr (List.forall_mem_singleton.mpr (plain_tower n).hasLoneSurrogate_toJson)

theorem depth_document_tower (n : Nat) : (document [tower n]).depth = 2 * n + 3 := by
  show 1 + max (tower n).toJson.depth 0 = 2 * n + 3
  rw [depth_tower]
  omega

/-- 150 fields, each below the last, are read under the widest limit and saved, and cannot be loaded. -/
theorem tower_unloaded :
    (Declaration.readForest .usual (some 200) ((towerCall 149).form.write none)).result = .ok [tower 149] ∧
      ∃ text, dump none [tower 149] = .ok text ∧ ∀ again, load text ≠ .ok again := by
  have hdocumented : ∀ f ∈ [tower 149], f.Documented fun x => x.merged = x :=
    List.forall_mem_singleton.mpr (documented_tower 149)
  have hlone := hasLoneSurrogate_tower 149
  refine ⟨readForest_tower (by decide) none, (document [tower 149]).write none, ?_, fun again hload => ?_⟩
  · refine (dump_eq_ok_iff hdocumented).mpr ⟨?_, hlone, rfl⟩
    show max (tower 149).levels 0 ≤ 254
    rw [levels_tower]
    decide
  · obtain ⟨hdepth, -, -⟩ := (load_write_iff hdocumented hlone none again).mp hload
    have hlimit : (jsonLimits 0).depth = 200 := rfl
    rw [depth_document_tower, hlimit] at hdepth
    omega

/-- Two fields, one below the other, are saved and loaded. -/
theorem tower_loaded :
    (Declaration.readForest .usual (some 200) ((towerCall 1).form.write none)).result = .ok [tower 1] ∧
      ∃ text, dump none [tower 1] = .ok text ∧ ∃ again, load text = .ok again := by
  have hread : (Declaration.readForest .usual (some 200) ((towerCall 1).form.write none)).result = .ok [tower 1] :=
    readForest_tower (by decide) none
  have hreadable : (document [tower 1]).Readable (jsonLimits 0) :=
    .array (List.forall_mem_singleton.mpr (plain_tower 1).readable_toJson)
  refine ⟨hread, (saved_and_loaded_iff hread none).2.1.mpr ⟨hasLoneSurrogate_tower 1, ?_, ?_⟩⟩
  · rw [depth_document_tower]
    decide
  · rw [hreadable.finite_eq]
    exact hreadable

end Forest

end FieldForest
