/-
  FieldForest.Proofs.Forest.SavedForm — the documents that are loaded, and the forests they save.

  A document saves a field if it is an object with strings under `id` and `type`, an object under
  `options` that holds the flag as a truth value, and under `fields` a list of such objects or
  nothing at all. Loading checks this in several places: the parts one by one, then the options as
  a whole, with an empty dictionary in place of options that are not there. What is loaded is told
  here without any of that, and for documents with repeated keys by what merging leaves of them.

  Proved:
  - `unrepeated_iff_merged_eq`: merging leaves the documents without repeated keys as they are.
  - `mem_iff_member?`: where keys differ, a member is what is found under its key.
  - `parts_of_assemble`: a field that is made of loose parts has these parts.
  - `ofValue_ofJson_eq_ok_iff`: the field of a document is the one that it saves.
  - `isField_iff_exists_saves`: and it is there if the document has the form of one.
  - `loads_exactly_saved`: so with the texts of forests; every field of a forest that is loaded has
    its flag among its options.
-/
import Mathlib.Data.List.Forall2
import FieldForest.Proofs.Forest.Documents
import FieldForest.Proofs.Forest.RoundTrip
import FieldForest.Proofs.Forest.Views

namespace FieldForest

/-! ## Documents without repeated keys -/

namespace Json

/-- No object in the document has two members with one key. -/
inductive Unrepeated : Json → Prop
  | null : Unrepeated .null
  | bool (b : Bool) : Unrepeated (.bool b)
  | int (n : Int) : Unrepeated (.int n)
  | float (x : Binary64) : Unrepeated (.float x)
  | text (t : Text) : Unrepeated (.text t)
  | array {elements : List Json} : (∀ x ∈ elements, Unrepeated x) → Unrepeated (.array elements)
  | object {members : List (Text × Json)} : (members.map Prod.fst).Nodup → (∀ m ∈ members, Unrepeated m.2) →
      Unrepeated (.object members)

/-- These are the documents that merging leaves as they are. -/
theorem unrepeated_iff_merged_eq {x : Json} : x.Unrepeated ↔ x.merged = x := by
  constructor
  · intro h
    induction h with
    | array _ ih => exact merged_array ih
    | object hkeys _ ih => exact merged_object ih hkeys
    | _ => rfl
  · intro h
    induction x using Json.induction with
    | array elements ih =>
      have helements := merged_array_eq_iff.mp h
      exact .array fun x hx => ih x hx (helements x hx)
    | object members ih =>
      obtain ⟨hkeys, hvalues⟩ := merged_object_eq_iff.mp h
      exact .object hkeys fun m hm => ih m hm (hvalues m hm)
    | _ => constructor

/-- Where keys differ, a member is what is found under its key. -/
theorem mem_iff_member? {members : List (Text × Json)} (hkeys : (members.map Prod.fst).Nodup) {key : Text} {x : Json} :
    (key, x) ∈ members ↔ member? key members = some x := by
  induction members with
  | nil => simp [member?]
  | cons m rest ih =>
    obtain ⟨k, y⟩ := m
    rw [List.map_cons, List.nodup_cons] at hkeys
    by_cases hk : k = key
    · subst hk
      have hrest : (k, x) ∉ rest := fun hmem => hkeys.1 (List.mem_map.mpr ⟨(k, x), hmem, rfl⟩)
      simp [member?, hrest, eq_comm]
    · have hkeep : member? key ((k, y) :: rest) = member? key rest := by simp [member?, hk]
      rw [hkeep, ← ih hkeys.2, List.mem_cons, Prod.mk.injEq]
      simp [Ne.symm hk]

theorem mem_of_member? {members : List (Text × Json)} {key : Text} {x : Json} (h : member? key members = some x) :
    (key, x) ∈ members := by
  obtain ⟨m, hm, rfl⟩ := Option.map_eq_some_iff.mp h
  have hkey := List.find?_some hm
  rw [beq_iff_eq] at hkey
  rw [← hkey]
  exact List.mem_of_find?_eq_some hm

/-- Induction over the objects that stand below a document, in the list under one key. -/
theorem listed_induction (key : Text) {motive : Json → Prop}
    (other : ∀ x, (∀ members, x ≠ .object members) → motive x)
    (object : ∀ members, (∀ xs, member? key members = some (.array xs) → ∀ x ∈ xs, motive x) → motive (.object members))
    (x : Json) : motive x := by
  have hboth : motive x ∧ ∀ xs, x = .array xs → ∀ y ∈ xs, motive y := by
    induction x using Json.induction with
    | array elements ih =>
      refine ⟨other _ fun _ => by simp, fun xs hxs y hy => ?_⟩
      cases hxs
      exact (ih y hy).1
    | object members ih =>
      refine ⟨object members fun xs hxs => ?_, by simp⟩
      exact (ih _ (mem_of_member? hxs)).2 xs rfl
    | _ => exact ⟨other _ fun _ => by simp, by simp⟩
  exact hboth.1

end Json

/-! ## What documents save -/

namespace Field

open Json (member?)

/-- The members of an object give these parts of a field, the options with the flag among them. -/
structure Headed (members : List (Text × Json)) (id type : Text) (options : List (Text × Json)) (required : Bool) :
    Prop where
  id : member? "id" members = some (.text id)
  type : member? "type" members = some (.text type)
  flag : member? flagKey options = some (.bool required)
  options : member? "options" members = some (.object options)

/-- A document that has the form of a field, below it as well. -/
inductive IsField : Json → Prop
  | leaf {members options : List (Text × Json)} {id type : Text} {required : Bool} :
      Headed members id type options required → member? "fields" members = none → IsField (.object members)
  | listed {members options : List (Text × Json)} {id type : Text} {required : Bool} {xs : List Json} :
      Headed members id type options required → member? "fields" members = some (.array xs) →
      (∀ x ∈ xs, IsField x) → IsField (.object members)

/-- A document and the field that it saves, the options and the fields below in the order in which
    they stand in the document. -/
inductive Saves : Json → Field → Prop
  | leaf {members options : List (Text × Json)} {f : Field} :
      Headed members f.id f.type options f.required → f.options = optionsOfMembers options →
      member? "fields" members = none → f.fields = [] → Saves (.object members) f
  | listed {members options : List (Text × Json)} {f : Field} {xs : List Json} :
      Headed members f.id f.type options f.required → f.options = optionsOfMembers options →
      member? "fields" members = some (.array xs) → List.Forall₂ Saves xs f.fields → Saves (.object members) f

theorem Saves.exists_object {x : Json} {f : Field} (h : Saves x f) : ∃ members, x = .object members := by
  cases h with
  | leaf => exact ⟨_, rfl⟩
  | listed => exact ⟨_, rfl⟩

/-! ## Fields of documents -/

variable {id type : Text} {options : List (Text × Value)} {fields : List Field} {f : Field}

/-- The field that is made of sound parts has these parts. -/
theorem parts_of_assemble (h : assemble id type options fields = .ok f) :
    f.id = id ∧ f.type = type ∧ f.options = options ∧ f.fields = fields := by
  rw [assemble, List.span_eq_takeWhile_dropWhile] at h
  split at h
  · rename_i leading key required trailing hspan
    obtain ⟨hleading, hrest⟩ := Prod.mk.inj hspan
    have hkey : key = flagKey := by
      have hstop := List.head?_dropWhile_not (fun o : Text × Value => o.1 != flagKey) options
      rw [hrest] at hstop
      simpa using hstop
    have hoptions : leading ++ (flagKey, .bool required) :: trailing = options := by
      rw [← hkey, ← hleading, ← hrest]
      exact List.takeWhile_append_dropWhile
    split at h
    · cases h
      exact ⟨rfl, rfl, hoptions, rfl⟩
    · cases h
  · cases h

theorem entry?_ofMembers (name : Text) (members : List (Text × Json)) :
    Value.entry? name (Value.ofJson.ofMembers members) = (member? name members).map Value.ofJson := by
  induction members with
  | nil => rfl
  | cons m rest ih =>
    obtain ⟨key, x⟩ := m
    rw [Value.ofJson.ofMembers, Value.entry?, ih]
    by_cases hkey : key = name <;> simp [member?, hkey]

theorem ofFieldsEntry_ofMembers (members : List (Text × Json)) :
    ofFieldsEntry (Value.ofJson.ofMembers members) = belowOf ((member? "fields" members).map Value.ofJson) := by
  induction members with
  | nil => rfl
  | cons m rest ih =>
    obtain ⟨key, x⟩ := m
    rw [Value.ofJson.ofMembers, ofFieldsEntry, ih]
    by_cases hkey : key = ("fields" : Text) <;> simp [member?, hkey, belowOf]

theorem ofJson_eq_text_iff {x : Option Json} {t : Text} : x.map Value.ofJson = some (.text t) ↔ x = some (.text t) := by
  rcases x with _ | x
  · simp
  · cases x <;> simp [Value.ofJson]

theorem ofJson_eq_bool_iff {x : Json} {b : Bool} : Value.ofJson x = .bool b ↔ x = .bool b := by
  cases x <;> simp [Value.ofJson]

theorem isDeclaration_ofJson (x : Json) : (Value.ofJson x).isDeclaration = false := by
  cases x <;> rfl

theorem ofValue_object (members : List (Text × Json)) :
    ofValue (.ofJson (.object members)) =
      ofParts ((member? "id" members).map .ofJson) ((member? "type" members).map .ofJson)
        ((member? "options" members).map .ofJson) (belowOf ((member? "fields" members).map .ofJson)) := by
  rw [Value.ofJson, ofValue, entry?_ofMembers, entry?_ofMembers, entry?_ofMembers, ofFieldsEntry_ofMembers]

theorem optionsOf_ofJson_eq_ok_iff {x : Option Json} {os : List (Text × Value)} :
    optionsOf (x.map .ofJson) = .ok os ↔
      x = none ∧ os = [] ∨ ∃ options, x = some (.object options) ∧ os = optionsOfMembers options := by
  rcases x with _ | x
  · simp [optionsOf, eq_comm]
  · cases x with
    | object options =>
      have hoptions : optionsOf (some (.ofJson (.object options))) = .ok (optionsOfMembers options) := by
        rw [← optionsOfEntries_eq_ok, Value.ofJson, optionsOf, Value.ofMembers_eq_map, optionsOfMembers, List.map_map]
        rfl
      rw [Option.map_some, hoptions]
      simp [eq_comm]
    | _ => simp [optionsOf, Value.ofJson, Checked.fault]

theorem belowOf_ofJson_eq_ok_iff {x : Option Json} {fs : List Field} :
    belowOf (x.map .ofJson) = .ok fs ↔
      x = none ∧ fs = [] ∨
        ∃ xs, x = some (.array xs) ∧ List.Forall₂ (fun x f => ofValue (.ofJson x) = .ok f) xs fs := by
  rcases x with _ | x
  · simp [belowOf, eq_comm]
  · rw [Option.map_some, belowOf, Checked.under_eq_ok_iff]
    cases x with
    | array xs =>
      rw [Value.ofJson, ofSequence, Value.ofElements_eq_map, ofElements_eq_ok_iff, List.forall₂_map_left_iff]
      simp
    | _ => simp [ofSequence, Value.ofJson]

theorem mem_options (f : Field) : (flagKey, Value.bool f.required) ∈ f.options := by
  cases f
  exact List.mem_append_right _ List.mem_cons_self

/-- Where no key of the options repeats, sound parts give the field that has these options, if the
    flag is among them. -/
theorem assemble_ofMembers_eq_ok_iff {options : List (Text × Json)} (hkeys : (options.map Prod.fst).Nodup) :
    assemble id type (optionsOfMembers options) fields = .ok f ↔
      f.id = id ∧ f.type = type ∧ f.fields = fields ∧ f.options = optionsOfMembers options ∧
        member? flagKey options = some (.bool f.required) := by
  constructor
  · intro h
    obtain ⟨hid, htype, hoptions, hfields⟩ := parts_of_assemble h
    refine ⟨hid, htype, hfields, hoptions, ?_⟩
    have hflag := mem_options f
    rw [hoptions] at hflag
    obtain ⟨m, hm, hflag⟩ := List.mem_map.mp hflag
    obtain ⟨hkey, hvalue⟩ := Prod.mk.inj hflag
    rw [← Json.mem_iff_member? hkeys, ← hkey, ← ofJson_eq_bool_iff.mp hvalue]
    exact hm
  · intro h
    obtain ⟨rfl, rfl, rfl, hoptions, -⟩ := h
    rw [← hoptions]
    apply assemble_options
    · rw [hoptions]
      exact List.forall_mem_map.mpr fun m _ => isDeclaration_ofJson m.2
    · rw [← nodup_options_iff, hoptions, optionsOfMembers, List.map_map]
      exact hkeys

theorem forall₂_iff_of_mem {α β : Type} {R S : α → β → Prop} {xs : List α} {ys : List β}
    (h : ∀ x ∈ xs, ∀ y, R x y ↔ S x y) : List.Forall₂ R xs ys ↔ List.Forall₂ S xs ys := by
  constructor
  · intro hr
    exact ((List.forall₂_and_left ..).mpr ⟨h, hr⟩).imp fun x y hxy => (hxy.1 y).mp hxy.2
  · intro hs
    exact ((List.forall₂_and_left ..).mpr ⟨h, hs⟩).imp fun x y hxy => (hxy.1 y).mpr hxy.2

theorem exists_forall₂_iff {α β : Type} {R : α → β → Prop} {xs : List α} :
    (∃ ys, List.Forall₂ R xs ys) ↔ ∀ x ∈ xs, ∃ y, R x y := by
  induction xs with
  | nil => simp
  | cons x xs ih =>
    rw [List.forall_mem_cons, ← ih]
    constructor
    · intro h
      obtain ⟨_, h⟩ := h
      cases h with
      | cons hx hxs => exact ⟨⟨_, hx⟩, _, hxs⟩
    · intro h
      obtain ⟨⟨y, hx⟩, ys, hxs⟩ := h
      exact ⟨y :: ys, .cons hx hxs⟩

/-- Where no key repeats, the field of a document is the one that it saves. -/
theorem ofValue_ofJson_eq_ok_iff {x : Json} (h : x.merged = x) : ofValue (.ofJson x) = .ok f ↔ Saves x f := by
  induction x using Json.listed_induction "fields" generalizing f with
  | other x hx =>
    constructor
    · intro hf
      cases x with
      | object members => exact absurd rfl (hx members)
      | _ => cases hf
    · intro hf
      obtain ⟨members, rfl⟩ := hf.exists_object
      exact absurd rfl (hx members)
  | object members ih =>
    obtain ⟨-, hvalues⟩ := Json.merged_object_eq_iff.mp h
    have hkeys {options : List (Text × Json)} (hoptions : member? "options" members = some (.object options)) :
        (options.map Prod.fst).Nodup :=
      (Json.merged_object_eq_iff.mp (hvalues _ (Json.mem_of_member? hoptions))).1
    have hbelow {xs : List Json} (hxs : member? "fields" members = some (.array xs)) {fs : List Field} :
        List.Forall₂ (fun x f => ofValue (.ofJson x) = .ok f) xs fs ↔ List.Forall₂ Saves xs fs := by
      have helements := Json.merged_array_eq_iff.mp (hvalues _ (Json.mem_of_member? hxs))
      exact forall₂_iff_of_mem fun x hx f => ih xs hxs x hx (helements x hx)
    rw [ofValue_object, ofParts_eq_ok_iff]
    constructor
    · intro hf
      obtain ⟨i, t, os, fs, hid, htype, hoptions, hfields, hf⟩ := hf
      rcases optionsOf_ofJson_eq_ok_iff.mp hoptions with ⟨-, rfl⟩ | ⟨options, hgiven, rfl⟩
      · obtain ⟨-, -, hnone, -⟩ := parts_of_assemble hf
        have hflag := mem_options f
        rw [hnone] at hflag
        cases hflag
      · obtain ⟨rfl, rfl, rfl, hfoptions, hflag⟩ := (assemble_ofMembers_eq_ok_iff (hkeys hgiven)).mp hf
        have hhead : Headed members f.id f.type options f.required :=
          ⟨ofJson_eq_text_iff.mp hid, ofJson_eq_text_iff.mp htype, hflag, hgiven⟩
        rcases belowOf_ofJson_eq_ok_iff.mp hfields with ⟨hnone, hfs⟩ | ⟨xs, hxs, hfs⟩
        · exact .leaf hhead hfoptions hnone hfs
        · exact .listed hhead hfoptions hxs ((hbelow hxs).mp hfs)
    · intro hf
      have hmade {options : List (Text × Json)} (hhead : Headed members f.id f.type options f.required)
          (hfoptions : f.options = optionsOfMembers options)
          (hfields : belowOf ((member? "fields" members).map .ofJson) = .ok f.fields) :
          ∃ i t os fs, (member? "id" members).map Value.ofJson = some (.text i) ∧
            (member? "type" members).map Value.ofJson = some (.text t) ∧
            optionsOf ((member? "options" members).map .ofJson) = .ok os ∧
            belowOf ((member? "fields" members).map .ofJson) = .ok fs ∧ assemble i t os fs = .ok f := by
        refine ⟨f.id, f.type, optionsOfMembers options, f.fields, ofJson_eq_text_iff.mpr hhead.id,
          ofJson_eq_text_iff.mpr hhead.type, ?_, hfields, ?_⟩
        · exact optionsOf_ofJson_eq_ok_iff.mpr (.inr ⟨options, hhead.options, rfl⟩)
        · exact (assemble_ofMembers_eq_ok_iff (hkeys hhead.options)).mpr ⟨rfl, rfl, rfl, hfoptions, hhead.flag⟩
      cases hf with
      | leaf hhead hfoptions hnone hfs =>
        exact hmade hhead hfoptions (belowOf_ofJson_eq_ok_iff.mpr (.inl ⟨hnone, hfs⟩))
      | listed hhead hfoptions hxs hfs =>
        exact hmade hhead hfoptions (belowOf_ofJson_eq_ok_iff.mpr (.inr ⟨_, hxs, (hbelow hxs).mpr hfs⟩))

/-! ## The form of a field -/

theorem Headed.exists_field {members options : List (Text × Json)} {id type : Text} {required : Bool}
    (h : Headed members id type options required) (fields : List Field) :
    ∃ f : Field, Headed members f.id f.type options f.required ∧ f.options = optionsOfMembers options ∧
      f.fields = fields := by
  obtain ⟨leading, trailing, hsplit⟩ := List.append_of_mem (Json.mem_of_member? h.flag)
  refine ⟨.mk id type (optionsOfMembers leading) required (optionsOfMembers trailing) fields, h, ?_, rfl⟩
  show optionsOfMembers leading ++ (flagKey, .bool required) :: optionsOfMembers trailing = optionsOfMembers options
  simp [hsplit, optionsOfMembers, Value.ofJson]

/-- A document has the form of a field if it saves one. -/
theorem isField_iff_exists_saves {x : Json} : IsField x ↔ ∃ f, Saves x f := by
  constructor
  · intro h
    induction h with
    | leaf hhead hnone =>
      obtain ⟨f, hf, hoptions, hfields⟩ := hhead.exists_field []
      exact ⟨f, .leaf hf hoptions hnone hfields⟩
    | listed hhead hxs _ ih =>
      obtain ⟨fs, hfs⟩ := exists_forall₂_iff.mpr ih
      obtain ⟨f, hf, hoptions, rfl⟩ := hhead.exists_field fs
      exact ⟨f, .listed hf hoptions hxs hfs⟩
  · intro h
    obtain ⟨f, hf⟩ := h
    induction x using Json.listed_induction "fields" generalizing f with
    | other x hx =>
      obtain ⟨members, rfl⟩ := hf.exists_object
      exact absurd rfl (hx members)
    | object members ih =>
      cases hf with
      | leaf hhead _ hnone _ => exact .leaf hhead hnone
      | listed hhead _ hxs hfs =>
        refine .listed hhead hxs fun x hx => ?_
        obtain ⟨g, hg⟩ := exists_forall₂_iff.mp ⟨_, hfs⟩ x hx
        exact ih _ hxs x hx g hg

/-! ## The flag among the options -/

theorem lookup_optionsOfMembers (key : Text) (members : List (Text × Json)) :
    (optionsOfMembers members).lookup key = (member? key members).map .ofJson := by
  induction members with
  | nil => rfl
  | cons m rest ih =>
    by_cases hkey : m.1 = key
    · simp [optionsOfMembers, member?, hkey]
    · have hother : (key == m.1) = false := beq_eq_false_iff_ne.mpr (Ne.symm hkey)
      have hrest : (optionsOfMembers (m :: rest)).lookup key = (optionsOfMembers rest).lookup key := by
        simp only [optionsOfMembers, List.map_cons, List.lookup_cons, hother]
      rw [hrest, ih]
      simp [member?, hkey]

theorem Saves.lookup_flagKey {x : Json} (h : Saves x f) : f.options.lookup flagKey = some (.bool f.required) := by
  have hflag {members options : List (Text × Json)} (hhead : Headed members f.id f.type options f.required)
      (hoptions : f.options = optionsOfMembers options) : f.options.lookup flagKey = some (.bool f.required) := by
    rw [hoptions, lookup_optionsOfMembers, hhead.flag]
    rfl
  cases h with
  | leaf hhead hoptions _ _ => exact hflag hhead hoptions
  | listed hhead hoptions _ _ => exact hflag hhead hoptions

theorem exists_saves_of_forall₂ {xs : List Json} {fs : List Field} (h : List.Forall₂ Saves xs fs) :
    ∀ g ∈ fs, ∃ x, Saves x g := by
  induction h with
  | nil => exact List.forall_mem_nil _
  | cons hx _ ih => exact List.forall_mem_cons.mpr ⟨⟨_, hx⟩, ih⟩

/-- The fields below a field that is saved are saved. -/
theorem Saves.exists_saves_below {x : Json} (h : Saves x f) : ∀ g ∈ f.fields, ∃ y, Saves y g := by
  cases h with
  | leaf _ _ _ hfields =>
    rw [hfields]
    exact List.forall_mem_nil _
  | listed _ _ _ hfields => exact exists_saves_of_forall₂ hfields

end Field

/-! ## Texts of forests -/

namespace Forest

/-- The text is read as this document, and neither of them holds half of a surrogate pair. -/
structure Parsed (nanMark : Nat) (source : Text) (document : Json) : Prop where
  whole : source.hasLoneSurrogate = false
  read : Json.read (jsonLimits nanMark) source = .ok document
  sound : document.hasLoneSurrogate = false

theorem Parsed.loadMarked_eq {nanMark : Nat} {source : Text} {document : Json} (h : Parsed nanMark source document) :
    loadMarked nanMark source = ofDocument document.merged := by
  simp only [loadMarked, h.whole, h.read, h.sound]
  rfl

/-- Only what can be read is loaded. -/
theorem exists_parsed_of_loadMarked {nanMark : Nat} {source : Text} {forest : List Field}
    (h : loadMarked nanMark source = .ok forest) : ∃ document, Parsed nanMark source document := by
  rw [loadMarked] at h
  split at h
  · cases h
  rename_i hwhole
  split at h
  · rename_i document hread
    split at h
    · cases h
    rename_i hsound
    exact ⟨document, by simpa using hwhole, hread, by simpa using hsound⟩
  · cases h

/-- A merged document describes the forest whose fields its elements save. -/
theorem ofDocument_eq_ok_iff {x : Json} (h : x.merged = x) {forest : List Field} :
    ofDocument x = .ok forest ↔ ∃ xs, x = .array xs ∧ List.Forall₂ Field.Saves xs forest := by
  cases x with
  | array xs =>
    have hsaves : List.Forall₂ (fun x f => Field.ofValue (.ofJson x) = .ok f) xs forest ↔
        List.Forall₂ Field.Saves xs forest :=
      Field.forall₂_iff_of_mem fun x hx _ => Field.ofValue_ofJson_eq_ok_iff (Json.merged_array_eq_iff.mp h x hx)
    rw [ofDocument, Value.ofElements_eq_map, Field.ofElements_eq_ok_iff, List.forall₂_map_left_iff, hsaves]
    simp
  | _ => simp [ofDocument, Checked.fault]

/-- A text without repeated keys is loaded exactly if its document is a list of documents that have
    the form of fields, and as the forest that they save; every field of a forest that is loaded has
    its flag among its options. -/
theorem loads_exactly_saved (nanMark : Nat) (source : Text) :
    (∀ document, Parsed nanMark source document → document.Unrepeated →
      ((∃ forest, loadMarked nanMark source = .ok forest) ↔
        ∃ xs, document = .array xs ∧ ∀ x ∈ xs, Field.IsField x) ∧
      ∀ forest, loadMarked nanMark source = .ok forest ↔
        ∃ xs, document = .array xs ∧ List.Forall₂ Field.Saves xs forest) ∧
    ∀ forest, loadMarked nanMark source = .ok forest →
      ∀ p ∈ placed forest, p.2.options.lookup Field.flagKey = some (.bool p.2.required) := by
  constructor
  · intro document hparsed hkeys
    have hmerged := Json.unrepeated_iff_merged_eq.mp hkeys
    have hloads (forest : List Field) : loadMarked nanMark source = .ok forest ↔
        ∃ xs, document = .array xs ∧ List.Forall₂ Field.Saves xs forest := by
      rw [hparsed.loadMarked_eq, hmerged]
      exact ofDocument_eq_ok_iff hmerged
    refine ⟨?_, hloads⟩
    simp only [hloads, Field.isField_iff_exists_saves, ← Field.exists_forall₂_iff]
    constructor
    · intro h
      obtain ⟨forest, xs, hxs, hforest⟩ := h
      exact ⟨xs, hxs, forest, hforest⟩
    · intro h
      obtain ⟨xs, hxs, forest, hforest⟩ := h
      exact ⟨forest, xs, hxs, hforest⟩
  · intro forest hloaded
    obtain ⟨document, hparsed⟩ := exists_parsed_of_loadMarked hloaded
    rw [hparsed.loadMarked_eq, ofDocument_eq_ok_iff (Json.merged_merged document)] at hloaded
    obtain ⟨xs, -, hsaves⟩ := hloaded
    intro p hp
    have hbelow : ∀ f : Field, (∃ x, Field.Saves x f) → ∀ g ∈ f.fields, ∃ x, Field.Saves x g := by
      intro f hf
      obtain ⟨x, hx⟩ := hf
      exact hx.exists_saves_below
    obtain ⟨x, hx⟩ := forall_mem_placed hbelow (Field.exists_saves_of_forall₂ hsaves) p hp
    exact hx.lookup_flagKey

/-- A field with another below it is loaded with its options in order; without options it is not. -/
theorem loads_with_flag_only :
    let below : Json := .object [("id", .text "b"), ("type", .text "int"), ("options", .object [("required", .bool false)])]
    let document : Json := .array [.object [("id", .text "a"), ("type", .text "map"),
      ("options", .object [("x", .null), ("required", .bool true), ("y", .bool false)]), ("fields", .array [below])]]
    let unflagged : Json := .array [.object [("id", .text "a"), ("type", .text "map")]]
    loadMarked 0 (document.write none) =
        .ok [.mk "a" "map" [("x", .none)] true [("y", .bool false)] [.mk "b" "int" [] false [] []]] ∧
      ¬∃ forest, loadMarked 0 (unflagged.write none) = .ok forest := by
  intro below document unflagged
  have hwhole : (document.write none).hasLoneSurrogate = false := by
    rw [Json.write, Json.hasLoneSurrogate_writeAt]
    rfl
  have hparsed : Parsed 0 (document.write none) document := ⟨hwhole, rfl, rfl⟩
  have hunflagged : Parsed 0 (unflagged.write none) unflagged := ⟨rfl, rfl, rfl⟩
  have hkeys : document.Unrepeated := Json.unrepeated_iff_merged_eq.mpr rfl
  have hunflaggedKeys : unflagged.Unrepeated := Json.unrepeated_iff_merged_eq.mpr rfl
  constructor
  · apply (((loads_exactly_saved 0 _).1 document hparsed hkeys).2 _).mpr
    refine ⟨_, rfl, .cons (.listed ⟨rfl, rfl, rfl, rfl⟩ rfl rfl (.cons ?_ .nil)) .nil⟩
    exact .leaf ⟨rfl, rfl, rfl, rfl⟩ rfl rfl rfl
  · intro hloaded
    obtain ⟨xs, hxs, hforms⟩ := ((loads_exactly_saved 0 _).1 unflagged hunflagged hunflaggedKeys).1.mp hloaded
    obtain rfl : xs = [.object [("id", .text "a"), ("type", .text "map")]] := (Json.array.inj hxs).symm
    cases List.forall_mem_singleton.mp hforms with
    | leaf hhead _ => cases hhead.options
    | listed hhead _ _ => cases hhead.options

end Forest

end FieldForest
