/-
  FieldForest.Proofs.Value.Saving — values that a document keeps as they are.

  A plain value is made of what JSON has a form for, and of numbers that are not too long to be
  read. Its document stands for it again: nothing is taken for something else on the way, and
  no key is lost, as none stands there twice.

  Proved:
  - `mergeMembers_of_nodup`: members with different keys are not merged.
  - `Plain.readable_toJson` / `Plain.hasLoneSurrogate_toJson`: the document of a plain value can be
    written and read.
  - `Plain.merged_toJson` / `Plain.ofJson_toJson`: it is not merged and stands for the value.
  - `toJson_ofJson` / `levels_ofJson_le`: the value that a document stands for is saved as the
    document, and takes hardly more levels than that.
  - `Plain.levels_le` / `Plain.hasFixed`: the value can be saved if the document is not too deep.
-/
import FieldForest.Forest.Saving
import FieldForest.Proofs.Json.RoundTrip
import FieldForest.Proofs.Value.Keys

namespace FieldForest

namespace Json

variable {α : Type}

theorem put_of_not_mem {key : Text} {value : α} {members : List (Text × α)} (h : key ∉ members.map Prod.fst) :
    put key value members = members ++ [(key, value)] := by
  induction members with
  | nil => rfl
  | cons m rest ih =>
    rw [List.map_cons, List.mem_cons, not_or] at h
    rw [put, if_neg (Ne.symm h.1), ih h.2]
    rfl

/-- Members with different keys are not merged. -/
theorem mergeMembers_of_nodup {members : List (Text × α)} (h : (members.map Prod.fst).Nodup) :
    mergeMembers members = members := by
  have happend (rest merged : List (Text × α)) (h : ((merged ++ rest).map Prod.fst).Nodup) :
      rest.foldl (fun merged m => put m.1 m.2 merged) merged = merged ++ rest := by
    induction rest generalizing merged with
    | nil => exact (List.append_nil merged).symm
    | cons m rest ih =>
      obtain ⟨key, value⟩ := m
      have hkey : key ∉ merged.map Prod.fst := by
        rw [List.map_append, List.nodup_append] at h
        exact fun hmem => h.2.2 _ hmem _ List.mem_cons_self rfl
      rw [List.foldl_cons]
      dsimp only
      rw [put_of_not_mem hkey, ih, List.append_assoc]
      · rfl
      · rwa [List.append_assoc]
  exact happend members [] h

theorem mergedElements_eq_map (xs : List Json) : mergedElements xs = xs.map merged := by
  induction xs with
  | nil => rfl
  | cons x xs ih => rw [mergedElements, ih, List.map_cons]

theorem mergedMembers_eq_map (members : List (Text × Json)) :
    mergedMembers members = members.map fun m => (m.1, m.2.merged) := by
  induction members with
  | nil => rfl
  | cons m rest ih => rw [mergedMembers, ih, List.map_cons]

theorem merged_array {xs : List Json} (h : ∀ x ∈ xs, x.merged = x) : (array xs).merged = array xs := by
  rw [merged, mergedElements_eq_map, List.map_congr_left h, List.map_id']

/-- An object with different keys whose values are not merged is not merged. -/
theorem merged_object {members : List (Text × Json)} (h : ∀ m ∈ members, m.2.merged = m.2)
    (hkeys : (members.map Prod.fst).Nodup) : (object members).merged = object members := by
  have hvalues : ∀ m ∈ members, (m.1, m.2.merged) = m := fun m hm => by rw [h m hm]
  rw [merged, mergedMembers_eq_map, List.map_congr_left hvalues, List.map_id', mergeMembers_of_nodup hkeys]

theorem anyLoneSurrogate_eq_false_iff {xs : List Json} :
    anyLoneSurrogate xs = false ↔ ∀ x ∈ xs, x.hasLoneSurrogate = false := by
  induction xs with
  | nil => simp [anyLoneSurrogate]
  | cons x xs ih => rw [anyLoneSurrogate, Bool.or_eq_false_iff, ih, List.forall_mem_cons]

theorem anyLoneSurrogateIn_eq_false_iff {members : List (Text × Json)} :
    anyLoneSurrogateIn members = false ↔
      ∀ m ∈ members, m.1.hasLoneSurrogate = false ∧ m.2.hasLoneSurrogate = false := by
  induction members with
  | nil => simp [anyLoneSurrogateIn]
  | cons m rest ih =>
    rw [anyLoneSurrogateIn, Bool.or_eq_false_iff, Bool.or_eq_false_iff, ih, List.forall_mem_cons]

end Json

namespace Value

theorem allToJson_eq_map (xs : List Value) : allToJson xs = xs.map toJson := by
  induction xs with
  | nil => rfl
  | cons x xs ih => rw [allToJson, ih, List.map_cons]

theorem entriesToJson_eq_map (entries : List (Value × Value)) :
    entriesToJson entries = entries.map fun e => (e.1.keyText, e.2.toJson) := by
  induction entries with
  | nil => rfl
  | cons e rest ih => rw [entriesToJson, ih, List.map_cons]

theorem optionsToJson_eq_map (options : List (Text × Value)) :
    optionsToJson options = options.map fun o => (o.1, o.2.toJson) := by
  induction options with
  | nil => rfl
  | cons o rest ih => rw [optionsToJson, ih, List.map_cons]

theorem ofElements_eq_map (xs : List Json) : ofJson.ofElements xs = xs.map ofJson := by
  induction xs with
  | nil => rfl
  | cons x xs ih => rw [ofJson.ofElements, ih, List.map_cons]

theorem ofMembers_eq_map (members : List (Text × Json)) :
    ofJson.ofMembers members = members.map fun m => (.text m.1, ofJson m.2) := by
  induction members with
  | nil => rfl
  | cons m rest ih => rw [ofJson.ofMembers, ih, List.map_cons]

theorem mostLevels_le_iff {xs : List Value} {n : Nat} : mostLevels xs ≤ n ↔ ∀ x ∈ xs, x.levels ≤ n := by
  induction xs with
  | nil => simp [mostLevels]
  | cons x xs ih => rw [mostLevels, Nat.max_le, ih, List.forall_mem_cons]

theorem mostEntryLevels_le_iff {entries : List (Value × Value)} {n : Nat} :
    mostEntryLevels entries ≤ n ↔ ∀ e ∈ entries, e.2.levels ≤ n := by
  induction entries with
  | nil => simp [mostEntryLevels]
  | cons e rest ih => rw [mostEntryLevels, Nat.max_le, ih, List.forall_mem_cons]

theorem mostOptionLevels_le_iff {options : List (Text × Value)} {n : Nat} :
    mostOptionLevels options ≤ n ↔ ∀ o ∈ options, o.2.levels ≤ n := by
  induction options with
  | nil => simp [mostOptionLevels]
  | cons o rest ih => rw [mostOptionLevels, Nat.max_le, ih, List.forall_mem_cons]

theorem anyFixed_eq_false_iff {xs : List Value} : anyFixed xs = false ↔ ∀ x ∈ xs, x.hasFixed = false := by
  induction xs with
  | nil => simp [anyFixed]
  | cons x xs ih => rw [anyFixed, Bool.or_eq_false_iff, ih, List.forall_mem_cons]

theorem anyEntryFixed_eq_false_iff {entries : List (Value × Value)} :
    anyEntryFixed entries = false ↔ ∀ e ∈ entries, e.2.hasFixed = false := by
  induction entries with
  | nil => simp [anyEntryFixed]
  | cons e rest ih => rw [anyEntryFixed, Bool.or_eq_false_iff, ih, List.forall_mem_cons]

theorem anyOptionFixed_eq_false_iff {options : List (Text × Value)} :
    anyOptionFixed options = false ↔ ∀ o ∈ options, o.2.hasFixed = false := by
  induction options with
  | nil => simp [anyOptionFixed]
  | cons o rest ih => rw [anyOptionFixed, Bool.or_eq_false_iff, ih, List.forall_mem_cons]

/-! ## The value that a document stands for -/

theorem toJson_ofJson (x : Json) : (ofJson x).toJson = x := by
  induction x using Json.induction with
  | array elements ih =>
    rw [ofJson, ofElements_eq_map, toJson, allToJson_eq_map, List.map_map]
    exact congrArg Json.array ((List.map_congr_left ih).trans (List.map_id elements))
  | object members ih =>
    have hmembers : ∀ m ∈ members, ((Value.text m.1).keyText, (ofJson m.2).toJson) = m := by
      intro m hm
      rw [ih m hm]
      rfl
    rw [ofJson, ofMembers_eq_map, toJson, entriesToJson_eq_map, List.map_map]
    exact congrArg Json.object ((List.map_congr_left hmembers).trans (List.map_id members))
  | _ => rfl

theorem hasFixed_ofJson (x : Json) : (ofJson x).hasFixed = false := by
  induction x using Json.induction with
  | array elements ih =>
    rw [ofJson, ofElements_eq_map]
    exact anyFixed_eq_false_iff.mpr (List.forall_mem_map.mpr ih)
  | object members ih =>
    rw [ofJson, ofMembers_eq_map]
    exact anyEntryFixed_eq_false_iff.mpr (List.forall_mem_map.mpr ih)
  | _ => rfl

/-- The value of a document takes one level more than the document is deep. -/
theorem levels_ofJson_le (x : Json) : (ofJson x).levels ≤ x.depth + 1 := by
  induction x using Json.induction with
  | array elements ih =>
    have hmost : mostLevels (elements.map ofJson) ≤ Json.mostDepth elements + 1 := by
      refine mostLevels_le_iff.mpr (List.forall_mem_map.mpr fun x hx => Nat.le_trans (ih x hx) (Nat.succ_le_succ ?_))
      exact Json.mostDepth_le_iff.mp (Nat.le_refl _) x hx
    rw [ofJson, ofElements_eq_map, levels, Json.depth]
    omega
  | object members ih =>
    have hmost : mostEntryLevels (members.map fun m => (.text m.1, ofJson m.2)) ≤ Json.mostMemberDepth members + 1 := by
      refine mostEntryLevels_le_iff.mpr
        (List.forall_mem_map.mpr fun m hm => Nat.le_trans (ih m hm) (Nat.succ_le_succ ?_))
      exact Json.mostMemberDepth_le_iff.mp (Nat.le_refl _) m hm
    rw [ofJson, ofMembers_eq_map, levels, Json.depth]
    omega
  | _ => exact Nat.le_refl _

end Value

/-! ## Plain values -/

/-- A key that JSON has a form for. -/
def Value.IsPlainKey (v : Value) : Prop := ∃ key : Text, v = .text key ∧ key.hasLoneSurrogate = false

/-- A value that JSON has a form for, its numbers being finite and not too long for a reader. -/
inductive Value.Plain (limits : Json.Limits) : Value → Prop
  | none : Plain limits .none
  | bool (b : Bool) : Plain limits (.bool b)
  | int {n : Int} : limits.Admits n → Plain limits (.int n)
  | float (negative : Bool) (size : Magnitude) : Plain limits (.float (.finite negative size))
  | text {t : Text} : t.hasLoneSurrogate = false → Plain limits (.text t)
  | list {elements : List Value} : (∀ x ∈ elements, Plain limits x) → Plain limits (.list elements)
  | dict {entries : List (Value × Value)} :
      (∀ e ∈ entries, e.1.IsPlainKey) → (∀ e ∈ entries, Plain limits e.2) → Plain limits (.dict entries)

namespace Value.Plain

variable {limits : Json.Limits} {v : Value}

theorem readable_toJson (h : v.Plain limits) : v.toJson.Readable limits := by
  induction h with
  | none => exact .null
  | bool b => exact .bool b
  | int hn => exact .int hn
  | float negative size => exact .float negative size
  | @text t ht => exact .text t
  | list _ ih =>
    rw [toJson, allToJson_eq_map]
    exact .array (List.forall_mem_map.mpr ih)
  | dict _ _ ih =>
    rw [toJson, entriesToJson_eq_map]
    exact .object (List.forall_mem_map.mpr ih)

theorem hasLoneSurrogate_toJson (h : v.Plain limits) : v.toJson.hasLoneSurrogate = false := by
  induction h with
  | none => rfl
  | bool b => rfl
  | int hn => rfl
  | float negative size => rfl
  | text ht => exact ht
  | list _ ih =>
    rw [toJson, allToJson_eq_map, Json.hasLoneSurrogate, Json.anyLoneSurrogate_eq_false_iff]
    exact List.forall_mem_map.mpr ih
  | dict hkeys _ ih =>
    rw [toJson, entriesToJson_eq_map, Json.hasLoneSurrogate, Json.anyLoneSurrogateIn_eq_false_iff]
    refine List.forall_mem_map.mpr fun e he => ⟨?_, ih e he⟩
    obtain ⟨key, hkey, hlone⟩ := hkeys e he
    rw [hkey]
    exact hlone

/-- The document of a plain value stands for the value. -/
theorem ofJson_toJson (h : v.Plain limits) : ofJson v.toJson = v := by
  induction h with
  | none => rfl
  | bool b => rfl
  | int hn => rfl
  | float negative size => rfl
  | text ht => rfl
  | @list elements _ ih =>
    rw [toJson, allToJson_eq_map, ofJson, ofElements_eq_map, List.map_map]
    exact congrArg Value.list ((List.map_congr_left ih).trans (List.map_id elements))
  | @dict entries hkeys _ ih =>
    have hentries : ∀ e ∈ entries, (Value.text e.1.keyText, ofJson e.2.toJson) = e := by
      intro e he
      obtain ⟨key, hkey, -⟩ := hkeys e he
      obtain ⟨k, x⟩ := e
      cases hkey
      rw [ih _ he]
      rfl
    rw [toJson, entriesToJson_eq_map, ofJson, ofMembers_eq_map, List.map_map]
    exact congrArg Value.dict ((List.map_congr_left hentries).trans (List.map_id entries))

/-- The document of a plain value is not merged. -/
theorem merged_toJson (h : v.Plain limits) (hk : v.WellKeyed) : v.toJson.merged = v.toJson := by
  induction h with
  | none => rfl
  | bool b => rfl
  | int hn => rfl
  | float negative size => rfl
  | text ht => rfl
  | @list elements _ ih =>
    rw [toJson, allToJson_eq_map]
    exact Json.merged_array (List.forall_mem_map.mpr fun x hx => ih x hx (allWellKeyed_iff.mp hk x hx))
  | @dict entries hkeys _ ih =>
    have hnodup : ((entries.map fun e => (e.1.keyText, e.2.toJson)).map Prod.fst).Nodup := by
      rw [List.map_map, List.Nodup, List.pairwise_map]
      refine hk.1.imp_of_mem fun {a b} ha hb hdiffer heq => ?_
      obtain ⟨key, hkey, -⟩ := hkeys a ha
      obtain ⟨key', hkey', -⟩ := hkeys b hb
      simp only [Function.comp_apply, hkey, hkey', keyText] at heq
      simp [hkey, hkey', heq, same] at hdiffer
    rw [toJson, entriesToJson_eq_map]
    exact Json.merged_object
      (List.forall_mem_map.mpr fun e he => ih e he (entriesWellKeyed_iff.mp hk.2 e he).2) hnodup

theorem hasFixed (h : v.Plain limits) : v.hasFixed = false := by
  rw [← h.ofJson_toJson]
  exact hasFixed_ofJson _

theorem isDeclaration (h : v.Plain limits) : v.isDeclaration = false := by
  cases h <;> rfl

/-- A plain value takes one level more than its document is deep. -/
theorem levels_le (h : v.Plain limits) : v.levels ≤ v.toJson.depth + 1 := by
  have hlevels := levels_ofJson_le v.toJson
  rwa [h.ofJson_toJson] at hlevels

end Value.Plain

end FieldForest
