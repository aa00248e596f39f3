/-
  FieldForest.Proofs.Forest.Documents — the forests of declarations that are written in JSON.

  Reading keeps every part of a document that it does not look into, so what holds of a
  document and of all its parts holds of what stands in the statements, and what stands in the
  statements is all that is in the fields they mean. `Inherited` says of a property that it
  goes down to the parts; that no key repeats is one, and that no string holds half a surrogate
  pair is another.

  Proved:
  - `merged_merged` / `merged_object_eq_iff`: a merged document is one in which no key repeats.
  - `inherited_merged` / `inherited_hasLoneSurrogate`: both properties are inherited.
  - `documented_of_describes`: they go from a document to the statements that it describes.
  - `Sound.documented_field` / `documented_of_builds`: and from these to the fields of the forest.
  - `exists_document_of_readForest`: what is read from text has such a
    document.
-/
import FieldForest.Forest.Declared
import FieldForest.Proofs.Build.Acceptance
import FieldForest.Proofs.Declaration.Calls
import FieldForest.Proofs.Json.ReadBack

namespace FieldForest

namespace Json

/-! ## Merged documents -/

variable {α : Type}

theorem mem_put {key : Text} {value : α} {members : List (Text × α)} {m : Text × α} (h : m ∈ put key value members) :
    m = (key, value) ∨ m ∈ members := by
  induction members with
  | nil => exact .inl (List.mem_singleton.mp h)
  | cons n rest ih =>
    obtain ⟨k, v⟩ := n
    rw [put] at h
    split at h
    · rcases List.mem_cons.mp h with rfl | h
      · exact .inl rfl
      · exact .inr (List.mem_cons_of_mem _ h)
    · rcases List.mem_cons.mp h with rfl | h
      · exact .inr List.mem_cons_self
      · exact (ih h).imp id (List.mem_cons_of_mem _)

theorem nodup_put {key : Text} {value : α} {members : List (Text × α)} (h : (members.map Prod.fst).Nodup) :
    ((put key value members).map Prod.fst).Nodup := by
  induction members with
  | nil => exact List.pairwise_singleton _ _
  | cons n rest ih =>
    obtain ⟨k, v⟩ := n
    rw [List.map_cons, List.nodup_cons] at h
    rw [put]
    split
    · rename_i hk
      subst hk
      exact List.nodup_cons.mpr h
    · rename_i hk
      refine List.nodup_cons.mpr ⟨fun hmem => ?_, ih h.2⟩
      obtain ⟨m, hm, hmk⟩ := List.mem_map.mp hmem
      rcases mem_put hm with rfl | hm
      · exact hk hmk.symm
      · exact h.1 (List.mem_map.mpr ⟨m, hm, hmk⟩)

/-- Merging adds no member, and leaves one for each key. -/
theorem mergeMembers_spec (members : List (Text × α)) :
    (∀ m ∈ mergeMembers members, m ∈ members) ∧ ((mergeMembers members).map Prod.fst).Nodup := by
  have hstep (rest merged : List (Text × α)) (hnodup : (merged.map Prod.fst).Nodup) :
      (∀ m ∈ rest.foldl (fun merged m => put m.1 m.2 merged) merged, m ∈ merged ∨ m ∈ rest) ∧
        ((rest.foldl (fun merged m => put m.1 m.2 merged) merged).map Prod.fst).Nodup := by
    induction rest generalizing merged with
    | nil => exact ⟨fun m hm => .inl hm, hnodup⟩
    | cons n rest ih =>
      obtain ⟨key, value⟩ := n
      obtain ⟨hmem, hkeys⟩ := ih (put key value merged) (nodup_put hnodup)
      refine ⟨fun m hm => ?_, hkeys⟩
      rcases hmem m hm with hm | hm
      · rcases mem_put hm with rfl | hm
        · exact .inr List.mem_cons_self
        · exact .inl hm
      · exact .inr (List.mem_cons_of_mem _ hm)
  obtain ⟨hmem, hnodup⟩ := hstep members [] List.nodup_nil
  exact ⟨fun m hm => (hmem m hm).resolve_left List.not_mem_nil, hnodup⟩

theorem merged_merged (x : Json) : x.merged.merged = x.merged := by
  induction x using Json.induction with
  | array elements ih =>
    rw [merged, mergedElements_eq_map]
    exact merged_array (List.forall_mem_map.mpr ih)
  | object members ih =>
    obtain ⟨hmem, hnodup⟩ := mergeMembers_spec (mergedMembers members)
    rw [merged]
    refine merged_object (fun m hm => ?_) hnodup
    have hm := hmem m hm
    rw [mergedMembers_eq_map] at hm
    obtain ⟨n, hn, rfl⟩ := List.mem_map.mp hm
    exact ih n hn
  | _ => rfl

/-- An object is merged if its keys differ and its values are merged. -/
theorem merged_object_eq_iff {members : List (Text × Json)} :
    (object members).merged = object members ↔
      (members.map Prod.fst).Nodup ∧ ∀ m ∈ members, m.2.merged = m.2 := by
  constructor
  · intro h
    rw [merged, object.injEq, mergedMembers_eq_map] at h
    have hnodup : (members.map Prod.fst).Nodup := by
      rw [← h]
      exact (mergeMembers_spec _).2
    rw [mergeMembers_of_nodup (by rwa [List.map_map])] at h
    refine ⟨hnodup, fun m hm => ?_⟩
    have hm := List.map_inj_left.mp (h.trans (List.map_id members).symm) m hm
    exact congrArg Prod.snd hm
  · rintro ⟨hnodup, hvalues⟩
    exact merged_object hvalues hnodup

theorem merged_array_eq_iff {xs : List Json} : (array xs).merged = array xs ↔ ∀ x ∈ xs, x.merged = x := by
  refine ⟨fun h => ?_, merged_array⟩
  rw [merged, array.injEq, mergedElements_eq_map] at h
  exact List.map_inj_left.mp (h.trans (List.map_id xs).symm)

/-! ## Properties that go down to the parts of a document -/

/-- A property that the elements and members of a document have with it, and an object with some of
    its members left out. -/
structure Inherited (P : Json → Prop) : Prop where
  element {xs : List Json} : P (.array xs) → ∀ x ∈ xs, P x
  member {members : List (Text × Json)} : P (.object members) → ∀ m ∈ members, P m.2
  some {members : List (Text × Json)} (keep : Text × Json → Bool) : P (.object members) → P (.object (members.filter keep))
  empty : P (.object [])

theorem inherited_merged : Inherited fun x => x.merged = x where
  element h := merged_array_eq_iff.mp h
  member h := (merged_object_eq_iff.mp h).2
  some keep h := by
    obtain ⟨hnodup, hvalues⟩ := merged_object_eq_iff.mp h
    refine merged_object_eq_iff.mpr ⟨hnodup.sublist (List.filter_sublist.map _), fun m hm => ?_⟩
    exact hvalues m (List.mem_of_mem_filter hm)
  empty := rfl

theorem inherited_hasLoneSurrogate : Inherited fun x => x.hasLoneSurrogate = false where
  element h := anyLoneSurrogate_eq_false_iff.mp h
  member h m hm := (anyLoneSurrogateIn_eq_false_iff.mp h m hm).2
  some _ h := anyLoneSurrogateIn_eq_false_iff.mpr fun m hm =>
    anyLoneSurrogateIn_eq_false_iff.mp h m (List.mem_of_mem_filter hm)
  empty := rfl

/-- Merging puts no half of a surrogate pair into a document. -/
theorem hasLoneSurrogate_merged {x : Json} (h : x.hasLoneSurrogate = false) : x.merged.hasLoneSurrogate = false := by
  induction x using Json.induction with
  | array elements ih =>
    have helements := anyLoneSurrogate_eq_false_iff.mp h
    rw [merged, mergedElements_eq_map]
    exact anyLoneSurrogate_eq_false_iff.mpr (List.forall_mem_map.mpr fun x hx => ih x hx (helements x hx))
  | object members ih =>
    have hmembers := anyLoneSurrogateIn_eq_false_iff.mp h
    refine anyLoneSurrogateIn_eq_false_iff.mpr fun m hm => ?_
    have hm := (mergeMembers_spec (mergedMembers members)).1 m hm
    rw [mergedMembers_eq_map] at hm
    obtain ⟨n, hn, rfl⟩ := List.mem_map.mp hm
    exact ⟨(hmembers n hn).1, ih n hn (hmembers n hn).2⟩
  | _ => exact h

end Json

/-! ## Statements -/

variable {P : Json → Prop}

/-- A value that stands for a document with the property. -/
def Value.Documented (P : Json → Prop) (v : Value) : Prop := ∃ x, P x ∧ v = .ofJson x

theorem Value.Documented.text {t : Text} (h : (Value.text t).Documented P) : P (.text t) := by
  obtain ⟨x, hx, ht⟩ := h
  cases x <;> cases ht
  exact hx

/-- A statement whose arguments stand for documents with the property, in its body as well. -/
inductive Statement.Documented (P : Json → Prop) : Statement → Prop
  | plain {keyword : Text} {args : List Value} : (∀ v ∈ args, v.Documented P) → Documented P ⟨keyword, args⟩
  | body {keyword : Text} {name type : Value} {d : Declaration} : name.Documented P → type.Documented P →
      (∀ s ∈ d.statements, Documented P s) → Documented P ⟨keyword, [name, type, .nested d]⟩

namespace Declaration

open Json (Inherited)

mutual

theorem documented_of_describesItem (hP : Inherited P) {depth : Nat} : ∀ {x : Json} {i : Item},
    DescribesItem depth x i → P x → ∀ s ∈ i.statements, s.Documented P
  | _, _, .block _ hitems, hx => by
    have hlist := hP.member hx _ List.mem_cons_self
    rw [Item.statements]
    exact documented_of_describesItems hP hitems (hP.element hlist)
  | _, _, .statement _ _ hargs, hx => by
    have hlist := hP.member hx _ List.mem_cons_self
    rw [Item.statements, List.forall_mem_singleton]
    exact documented_of_describesArgs hP hargs (hP.element hlist)

theorem documented_of_describesItems (hP : Inherited P) {depth : Nat} : ∀ {xs : List Json} {is : List Item},
    DescribesItems depth xs is → (∀ x ∈ xs, P x) → ∀ s ∈ Item.allStatements is, s.Documented P
  | _, _, .nil, _ => by
    rw [Item.allStatements]
    exact List.forall_mem_nil _
  | _, _, .cons hi his, hxs => by
    obtain ⟨hx, hxs⟩ := List.forall_mem_cons.mp hxs
    rw [Item.allStatements, List.forall_mem_append]
    exact ⟨documented_of_describesItem hP hi hx, documented_of_describesItems hP his hxs⟩

theorem documented_of_describesArgs (hP : Inherited P) {depth : Nat} {keyword : Text} :
    ∀ {args : List Json} {values : List Value},
      DescribesArgs depth args values → (∀ x ∈ args, P x) → Statement.Documented P ⟨keyword, values⟩
  | _, _, .plain _, hargs => .plain (List.forall_mem_map.mpr fun x hx => ⟨x, hargs x hx, rfl⟩)
  | _, _, .body hd, hargs => by
    simp only [List.forall_mem_cons] at hargs
    obtain ⟨hname, htype, hbody, -⟩ := hargs
    have hbody := hP.member hbody _ List.mem_cons_self
    exact .body ⟨_, hname, rfl⟩ ⟨_, htype, rfl⟩ (documented_of_describes hP hd hbody)

/-- What holds of a document and its parts holds of the statements that it describes. -/
theorem documented_of_describes (hP : Inherited P) {depth : Nat} : ∀ {x : Json} {d : Declaration},
    Describes depth x d → P x → ∀ s ∈ d.statements, s.Documented P
  | _, _, .sequence hitems, hx => documented_of_describesItems hP hitems (hP.element hx)
  | _, _, .single hi, hx => by
    rw [statements, items, Item.allStatements, Item.allStatements, List.append_nil]
    exact documented_of_describesItem hP hi hx

end

end Declaration

/-! ## Fields -/

/-- Options that stand for the members of an object. -/
def optionsOfMembers (members : List (Text × Json)) : List (Text × Value) := members.map fun m => (m.1, .ofJson m.2)

/-- A field whose texts and options stand for documents with the property, the options being those
    of one object without the flag, which comes behind them; so it is with the fields below. -/
inductive Field.Documented (P : Json → Prop) : Field → Prop
  | mk {id type : Text} {members : List (Text × Json)} {required : Bool} {fields : List Field} :
      P (.text id) → P (.text type) → P (.object members) → (∀ m ∈ members, m.1 ≠ flagKey) →
      (∀ g ∈ fields, Documented P g) → Documented P (.mk id type (optionsOfMembers members) required [] fields)

theorem settingsOf_ofMembers (members : List (Text × Json)) :
    settingsOf (Value.ofJson.ofMembers members) =
      optionsOfMembers (members.filter fun m => decide (m.1 ≠ Field.flagKey)) := by
  induction members with
  | nil => rfl
  | cons m rest ih =>
    obtain ⟨key, x⟩ := m
    rw [Value.ofJson.ofMembers, settingsOf, ih]
    by_cases hkey : key = Field.flagKey
    · rw [if_pos hkey, List.filter_cons_of_neg (by simpa using hkey)]
    · rw [if_neg hkey, List.filter_cons_of_pos (by simpa using hkey)]
      rfl

namespace Statement

open Json (Inherited)

variable {limit : Nesting.Limit} {depth : Nat}

/-- What holds of the documents in a statement holds of those in the field that it means. -/
theorem Sound.documented_field (hP : Inherited P) {s : Statement} (h : s.Sound limit depth) (hd : s.Documented P) :
    s.field.Documented P := by
  induction h with
  | @bare _ k id ty =>
    cases hd with
    | plain hargs =>
      simp only [List.forall_mem_cons] at hargs
      rw [field_bare]
      show Field.Documented P (.mk id ty (optionsOfMembers []) _ [] [])
      exact .mk hargs.1.text hargs.2.1.text hP.empty (List.forall_mem_nil _) (List.forall_mem_nil _)
  | @options _ k id ty options entries _ _ _ hmapping _ =>
    cases hd with
    | plain hargs =>
      simp only [List.forall_mem_cons] at hargs
      obtain ⟨hid, hty, ⟨x, hx, rfl⟩, -⟩ := hargs
      cases x with
      | object members =>
        cases hmapping
        rw [field_options k id ty rfl, settingsOf_ofMembers]
        refine .mk hid.text hty.text (hP.some _ hx) (fun m hm => ?_) (List.forall_mem_nil _)
        simpa using List.of_mem_filter hm
      | _ => cases hmapping
    | body => cases hmapping
  | @composite _ k id ty body _ _ _ _ _ _ ih =>
    cases hd with
    | plain hargs =>
      simp only [List.forall_mem_cons] at hargs
      obtain ⟨-, -, ⟨x, -, hbody⟩, -⟩ := hargs
      cases x <;> cases hbody
    | body hname htype hbody =>
      rw [field_composite]
      show Field.Documented P (.mk id ty (optionsOfMembers []) _ [] _)
      refine .mk hname.text htype.text hP.empty (List.forall_mem_nil _) ?_
      exact List.forall_mem_map.mpr fun s hs => ih s hs (hbody s hs)

end Statement

namespace Declaration

/-- What holds of a merged document and its parts holds of the fields of its forest. -/
theorem documented_of_builds (hP : Json.Inherited P) {document : Json} (hdocument : P document.merged)
    {stack : Stack} {d : Declaration} (hd : ofJson stack document = .ok d) {limit : Nesting.Limit} {forest : List Field}
    (hbuilds : (d.toValue.buildForest limit).result = .ok forest) : ∀ f ∈ forest, f.Documented P := by
  have hdescribes := (exact_ofJson stack document).sound d hd
  have hstatements := documented_of_describes hP hdescribes hdocument
  obtain ⟨ss, hss, hsound, -, rfl⟩ := (Value.builds_iff_statements _ _ _).mp hbuilds
  rw [Value.statements?_toValue, Option.some.injEq] at hss
  subst hss
  exact List.forall_mem_map.mpr fun s hs => (hsound s hs).documented_field hP (hstatements s hs)

/-- A forest that is read from text is built from what a document describes. -/
theorem exists_document_of_readForest {stack : Stack} {depth : Option Int} {source : Text} {forest : List Field}
    (h : (readForest stack depth source).result = .ok forest) :
    ∃ document d limit, Json.read stack.jsonLimits source = .ok document ∧ ofJson stack document = .ok d ∧
      (d.toValue.buildForest limit).result = .ok forest := by
  rw [Call.result_readForest] at h
  cases hd : read stack source with
  | error e =>
    rw [hd] at h
    cases h
  | ok d =>
    rw [hd] at h
    obtain ⟨document, hread, hdocument⟩ := read_eq_ok_iff_document.mp hd
    simp only [Value.declaredForest, Traced.result_bind_eq_ok, Traced.result_mapError, mapError_eq_ok_iff] at h
    obtain ⟨limit, -, hbuilds⟩ := h
    exact ⟨document, d, limit, hread, hdocument, hbuilds⟩

end Declaration

end FieldForest
