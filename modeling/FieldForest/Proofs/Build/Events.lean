/-
  FieldForest.Proofs.Build.Events — what a build reports is the trace of its forest.

  A build reports a field once it is complete, so behind the fields of its body. The reports of a
  build that succeeds are therefore one for each statement, those of a body in front of the
  statement it belongs to, and each tells the field that stands at that place of the forest. In
  front of it stands what the keyword overrides: a value under the flag's name among the options
  that does not count as the flag. Only a build that succeeds reports a forest.

  Proved:
  - `equals_bool_iff`: which values count as a truth value.
  - `events_settings` / `overridings_cases`: what the options of a statement make a build report.
  - `postOrder_perm_placed`: each field is told once, with its depth.
  - `events_build` / `events_buildEach`: the reports of a statement, and of the statements of a level.
  - `reports_topFields`: whether it succeeds or not, the fields of a value are built without a
    report of a forest.
  - `message_built` / `message_overriding` / `not_forestRecord`: how the reports are recorded.
  - `events_buildForest`: all reports of a build, and their records.
-/
import FieldForest.Proofs.Build.Image
import FieldForest.Proofs.Forest.Views

namespace FieldForest

/-! ## Values that count as a truth value -/

/-- A value counts as a truth value if it is that, or a number that is exactly one or zero. -/
def Value.CountsAs (b : Bool) : Value → Prop
  | .bool c => c = b
  | .int n => n = if b then 1 else 0
  | .float x => x.units? = some (if b then (Magnitude.unitsPerOne : Int) else 0)
  | _ => False

theorem Value.equals_bool_iff {v : Value} {b : Bool} : v.equals (.bool b) = true ↔ v.CountsAs b := by
  cases v with
  | bool c => cases b <;> cases c <;> simp [equals, same, number?, sameNumber, CountsAs]
  | int n => cases b <;> simp [equals, same, number?, sameNumber, CountsAs]
  | float x =>
    have hsame : equals (.float x) (.bool b) =
        (x.units? == some ((if b then 1 else 0) * (Magnitude.unitsPerOne : Int))) := by
      simp only [equals, same, number?, sameNumber]
    have hunits : (if b then 1 else 0) * (Magnitude.unitsPerOne : Int) =
        if b then (Magnitude.unitsPerOne : Int) else 0 := by
      cases b
      · exact Int.zero_mul _
      · exact Int.one_mul _
    rw [hsame, beq_iff_eq, hunits, CountsAs]
  | _ => simp [equals, same, number?, CountsAs]

/-! ## What the keyword overrides -/

/-- The values that stand under the flag's name among entries. -/
def flagsOf : List (Value × Value) → List Value
  | [] => []
  | (.text key, v) :: rest => if key = Field.flagKey then v :: flagsOf rest else flagsOf rest
  | _ :: rest => flagsOf rest

theorem mem_flagsOf_iff {entries : List (Value × Value)} {v : Value} :
    v ∈ flagsOf entries ↔ (.text Field.flagKey, v) ∈ entries := by
  fun_induction flagsOf entries with
  | case1 => simp
  | case2 w rest ih => simp [ih]
  | case3 key w rest hk ih =>
    rw [ih, List.mem_cons]
    refine ⟨.inr, fun h => h.resolve_left fun e => ?_⟩
    cases e
    exact hk rfl
  | case4 e rest he ih =>
    rw [ih, List.mem_cons]
    refine ⟨.inr, fun h => h.resolve_left fun e' => ?_⟩
    exact he _ _ e'.symm

/-- Where keys differ, at most one value stands under the flag's name. -/
theorem flagsOf_cases {entries : List (Value × Value)} (h : KeysDiffer entries) :
    flagsOf entries = [] ∨ ∃ v, flagsOf entries = [v] := by
  fun_induction flagsOf entries with
  | case1 => exact .inl rfl
  | case2 v rest ih =>
    obtain ⟨hkey, -⟩ := List.pairwise_cons.mp h
    refine .inr ⟨v, congrArg _ (List.eq_nil_iff_forall_not_mem.mpr fun w hw => ?_)⟩
    have hsame := hkey _ (mem_flagsOf_iff.mp hw)
    simp [Value.same] at hsame
  | case3 key v rest hk ih => exact ih (List.pairwise_cons.mp h).2
  | case4 e rest he ih => exact ih (List.pairwise_cons.mp h).2

/-- What is reported of entries that set the options of field `id`. -/
def overridingsOf (id : Text) (required : Bool) (entries : List (Value × Value)) : List Event :=
  ((flagsOf entries).filter fun v => !v.equals (.bool required)).map fun v => .overriding v id required

theorem Item.events_settings {statement : Item} {id : Text} {required : Bool} {entries : List (Value × Value)}
    (h : ∀ e ∈ entries, IsOption e) :
    (settings statement id required entries).events = overridingsOf id required entries := by
  induction entries with
  | nil => rfl
  | cons e rest ih =>
    obtain ⟨⟨⟨key, hkey⟩, hvalue⟩, hrest⟩ := List.forall_mem_cons.mp h
    obtain ⟨k, v⟩ := e
    dsimp only at hkey hvalue
    subst hkey
    have ih := ih hrest
    by_cases hflag : key = Field.flagKey
    · -- a value under the flag's name is left out, and reported if it differs
      have hsettings : settings statement id required ((.text key, v) :: rest) = (do
          if !v.equals (.bool required) then Traced.report (.overriding v id required)
          settings statement id required rest) := by
        simp only [settings, hvalue, Bool.false_eq_true, if_false, if_pos hflag]
      rw [hsettings, overridingsOf, flagsOf, if_pos hflag]
      by_cases hequals : v.equals (.bool required) = true
      · simp only [hequals, Bool.not_true, Bool.false_eq_true, if_false, List.filter_cons]
        exact ih
      · rw [Bool.not_eq_true] at hequals
        simp only [hequals, Bool.not_false, if_true, List.filter_cons, List.map_cons]
        rw [Traced.bind_eq_of_ok (Traced.result_report _), Traced.events_report, ih]
        rfl
    · have hmore : (settings statement id required rest).result = .ok (settingsOf rest) :=
        settings_eq_ok_iff.mpr ⟨hrest, rfl⟩
      rw [overridingsOf, flagsOf, if_neg hflag]
      simp only [settings, hvalue, Bool.false_eq_true, if_false, if_neg hflag]
      rw [Traced.bind_eq_of_ok hmore]
      exact (List.append_nil _).trans ih

namespace Statement

/-- The entries of the options of a statement. -/
def entries : Statement → List (Value × Value)
  | ⟨_, [_, _, options]⟩ => options.mapping?.getD []
  | _ => []

/-- What is reported of the options of a statement. -/
def overridings (s : Statement) : List Event := overridingsOf s.name s.required s.entries

theorem keysDiffer_entries {s : Statement} (h : s.item.WellKeyed) : KeysDiffer s.entries := by
  unfold entries
  split
  · exact (Value.WellKeyed.mapping h.2.2.1).1
  · exact .nil

/-- Where keys differ, at most one report is made of the options: of a value under the flag's name
    that does not count as the flag. -/
theorem overridings_cases {s : Statement} (h : KeysDiffer s.entries) :
    (∃ given, (.text Field.flagKey, given) ∈ s.entries ∧ ¬ given.CountsAs s.required ∧
        s.overridings = [.overriding given s.name s.required]) ∨
      (∀ given, (.text Field.flagKey, given) ∈ s.entries → given.CountsAs s.required) ∧ s.overridings = [] := by
  have hmem (given : Value) : given ∈ flagsOf s.entries ↔ (.text Field.flagKey, given) ∈ s.entries := mem_flagsOf_iff
  unfold overridings overridingsOf
  rcases flagsOf_cases h with hnone | ⟨v, hone⟩
  · refine .inr ⟨fun given hgiven => ?_, by rw [hnone]; rfl⟩
    rw [← hmem, hnone] at hgiven
    cases hgiven
  · rw [hone] at hmem ⊢
    by_cases hcounts : v.CountsAs s.required
    · refine .inr ⟨fun given hgiven => ?_, ?_⟩
      · rw [← hmem, List.mem_singleton] at hgiven
        exact hgiven ▸ hcounts
      · rw [List.filter_cons, Value.equals_bool_iff.mpr hcounts]
        rfl
    · refine .inl ⟨v, (hmem v).mp List.mem_cons_self, hcounts, ?_⟩
      rw [← Value.equals_bool_iff, Bool.not_eq_true] at hcounts
      rw [List.filter_cons, hcounts]
      rfl

end Statement

/-! ## Fields behind those below them -/

namespace Forest

mutual

/-- A field that stands at `depth`, behind the fields below it. -/
def completedAt (depth : Nat) : Field → List (Nat × Field)
  | .mk id type leading required trailing fields =>
    completedFrom (depth + 1) fields ++ [(depth, .mk id type leading required trailing fields)]

def completedFrom (depth : Nat) : List Field → List (Nat × Field)
  | [] => []
  | f :: fs => completedAt depth f ++ completedFrom depth fs

end

/-- All fields of a forest with their depths, each behind those below it. -/
def postOrder (forest : List Field) : List (Nat × Field) := completedFrom 1 forest

mutual

theorem completedAt_perm {depth : Nat} {position : List Nat} (h : position.length = depth) : ∀ f : Field,
    (completedAt depth f).Perm ((fieldPlaced position f).map fun p => (p.1.length, p.2))
  | .mk id type leading required trailing fields => by
    have hbelow := completedFrom_perm h 0 fields
    rw [completedAt, fieldPlaced, List.map_cons, h]
    exact List.perm_append_comm.trans (hbelow.cons _)

theorem completedFrom_perm {depth : Nat} {above : List Nat} (h : above.length = depth) (index : Nat) :
    ∀ fs : List Field,
      (completedFrom (depth + 1) fs).Perm ((placedFrom above index fs).map fun p => (p.1.length, p.2))
  | [] => .nil
  | f :: fs => by
    have hposition : (above ++ [index]).length = depth + 1 := by simp [h]
    have hf := completedAt_perm hposition f
    have hfs := completedFrom_perm h (index + 1) fs
    rw [completedFrom, placedFrom, List.map_append]
    exact hf.append hfs

end

/-- Each field is there once, with the length of its position for its depth. -/
theorem postOrder_perm_placed (forest : List Field) :
    (postOrder forest).Perm ((placed forest).map fun p => (p.1.length, p.2)) :=
  completedFrom_perm List.length_nil 0 forest

end Forest

namespace Statement

/-- A statement that stands at `depth`, behind the statements of its body. -/
def completedAt (depth : Nat) (s : Statement) : List (Nat × Statement) :=
  (s.body.attach.flatMap fun ⟨t, _⟩ => t.completedAt (depth + 1)) ++ [(depth, s)]
termination_by sizeOf s
decreasing_by exact sizeOf_lt_of_mem_body ‹_›

theorem completedAt_eq (depth : Nat) (s : Statement) :
    s.completedAt depth = s.body.flatMap (completedAt (depth + 1)) ++ [(depth, s)] := by
  rw [completedAt]
  simp [List.flatMap_subtype]

theorem map_completedFrom {ss : List Statement} {depth : Nat}
    (h : ∀ s ∈ ss, (s.completedAt depth).map (fun p => (p.1, p.2.field)) = Forest.completedAt depth s.field) :
    (ss.flatMap (completedAt depth)).map (fun p => (p.1, p.2.field)) =
      Forest.completedFrom depth (ss.map field) := by
  induction ss with
  | nil => rfl
  | cons s ss ih =>
    obtain ⟨hs, hss⟩ := List.forall_mem_cons.mp h
    rw [List.flatMap_cons, List.map_append, List.map_cons, Forest.completedFrom, hs, ih hss]

/-- The statements stand at the places of the fields that they mean. -/
theorem map_completedAt (s : Statement) (depth : Nat) :
    (s.completedAt depth).map (fun p => (p.1, p.2.field)) = Forest.completedAt depth s.field := by
  induction s using Statement.induction generalizing depth with
  | step s ih =>
    have hbody := map_completedFrom fun t ht => ih t ht (depth + 1)
    rw [completedAt_eq, field_eq, Forest.completedAt, List.map_append, hbody, ← field_eq]
    rfl

theorem wellKeyed_of_mem_completedAt {s : Statement} (h : s.item.WellKeyed) {depth : Nat} :
    ∀ p ∈ s.completedAt depth, p.2.item.WellKeyed := by
  induction s using Statement.induction generalizing depth with
  | step s ih =>
    intro p hp
    rw [completedAt_eq, List.mem_append, List.mem_singleton] at hp
    rcases hp with hp | rfl
    · obtain ⟨t, ht, hp⟩ := List.mem_flatMap.mp hp
      exact ih t ht (wellKeyed_body h t ht) p hp
    · exact h

/-! ## The reports of a build -/

/-- What is reported of a statement that stands at a depth, behind what is reported of its body. -/
def reportsAt (p : Nat × Statement) : List Event := p.2.overridings ++ [.built p.2.field p.1]

variable {limit : Nesting.Limit} {depth : Nat}

theorem events_complete (depth : Nat) (f : Field) : (Item.complete depth f).events = [.built f depth] := rfl

/-- The statements of a level report what each of them reports, if all of them build. -/
theorem events_buildEach_of {ss : List Statement} {seen : List Text} {fields : List Field}
    (hs : ∀ s ∈ ss, ∀ f, (s.build limit depth).result = .ok f →
      (s.build limit depth).events = (s.completedAt depth).flatMap reportsAt)
    (h : (buildEach limit depth seen ss).result = .ok fields) :
    (buildEach limit depth seen ss).events = (ss.flatMap (completedAt depth)).flatMap reportsAt := by
  induction ss generalizing seen fields with
  | nil => rfl
  | cons s ss ih =>
    rw [List.forall_mem_cons] at hs
    obtain ⟨f, hf, hrest⟩ := Traced.result_bind_eq_ok.mp h
    split at hrest
    · cases hrest
    · rename_i hfree
      obtain ⟨more, hmore, -⟩ := Traced.result_bind_eq_ok.mp hrest
      have hevents := ih hs.2 hmore
      rw [buildEach, Traced.bind_eq_of_ok hf, if_neg hfree, Traced.bind_eq_of_ok hmore, hs.1 f hf, hevents,
        List.flatMap_cons, List.flatMap_append]
      exact congrArg _ (List.append_nil _)

section

variable {keyword : Text} {a b : Value} {f : Field}

/-- A statement with a name and a type alone reports its field. -/
theorem events_build_bare (h : (build limit depth ⟨keyword, [a, b]⟩).result = .ok f) :
    (build limit depth ⟨keyword, [a, b]⟩).events = [.built f depth] := by
  obtain ⟨k, id, ty, hd, hk, hid, hty, rfl⟩ := build_bare_eq_ok_iff.mp h
  have hkeyword (s : Item) : Item.keywordAt limit depth keyword s = .ok k := Item.keywordAt_eq_ok_iff.mpr ⟨hd, hk⟩
  have hlabels (s : Item) : s.labels a b = .ok (id, ty) := Item.labels_eq_ok_iff.mpr ⟨hid, hty⟩
  simp only [build, Item.fieldOf, hkeyword, hlabels, Traced.ofExcept_ok_bind]
  rfl

theorem overridings_options {k : Keyword} {id ty : Text} {c : Value} {entries : List (Value × Value)}
    (hc : c.mapping? = some entries) :
    overridings ⟨k.name, [.text id, .text ty, c]⟩ = overridingsOf id (k = .requires) entries := by
  have hrequired : required ⟨k.name, [.text id, .text ty, c]⟩ = decide (k = .requires) := by cases k <;> rfl
  rw [overridings, hrequired, Statement.entries, hc]
  rfl

/-- A statement with options reports what its keyword overrides among them, and then its field. -/
theorem events_build_options {c : Value} {entries : List (Value × Value)} (hc : c.mapping? = some entries)
    (h : (build limit depth ⟨keyword, [a, b, c]⟩).result = .ok f) :
    (build limit depth ⟨keyword, [a, b, c]⟩).events = overridings ⟨keyword, [a, b, c]⟩ ++ [.built f depth] := by
  obtain ⟨k, id, ty, hd, rfl, ⟨rfl, hid⟩, ⟨rfl, hty⟩, he, rfl⟩ := (build_options_eq_ok_iff hc).mp h
  have hkeyword (s : Item) : Item.keywordAt limit depth k.name s = .ok k := Item.keywordAt_eq_ok_iff.mpr ⟨hd, rfl⟩
  have hlabels (s : Item) : s.labels (.text id) (.text ty) = .ok (id, ty) :=
    Item.labels_eq_ok_iff.mpr ⟨⟨rfl, hid⟩, rfl, hty⟩
  have hsettings (s : Item) : (s.settings id (k = .requires) entries).result = .ok (settingsOf entries) :=
    Item.settings_eq_ok_iff.mpr ⟨he, rfl⟩
  rw [build_of_options hc, Item.withOptions, hkeyword, Traced.ofExcept_ok_bind, hlabels, Traced.ofExcept_ok_bind]
  dsimp only
  rw [Traced.bind_eq_of_ok (hsettings _), Item.events_settings he, overridings_options hc, events_complete]

/-- A statement with a body reports what the statements of the body do, and then its field. -/
theorem events_build_composite {body : Declaration}
    (h : (build limit depth ⟨keyword, [a, b, .nested body]⟩).result = .ok f) :
    ∃ fields, (buildEach limit (depth + 1) [] body.statements).result = .ok fields ∧
      (build limit depth ⟨keyword, [a, b, .nested body]⟩).events =
        (buildEach limit (depth + 1) [] body.statements).events ++ [.built f depth] := by
  obtain ⟨k, id, ty, fields, hd, hk, hid, hty, hb, hne, rfl⟩ := build_composite_eq_ok_iff.mp h
  have hkeyword (s : Item) : Item.keywordAt limit depth keyword s = .ok k := Item.keywordAt_eq_ok_iff.mpr ⟨hd, hk⟩
  have hlabels (s : Item) : s.labels a b = .ok (id, ty) := Item.labels_eq_ok_iff.mpr ⟨hid, hty⟩
  have hempty : ¬ fields.isEmpty = true := by simpa using hne
  refine ⟨fields, hb, ?_⟩
  simp only [build, Item.fieldOf, hkeyword, hlabels, Traced.ofExcept_ok_bind, Item.bodyFields_eq_buildEach]
  rw [Traced.bind_eq_of_ok hb, if_neg hempty, events_complete]

end

/-- A statement that builds reports the statements of its body, what its keyword overrides, and then
    the field that it means. -/
theorem events_build (s : Statement) {depth : Nat} {f : Field} (h : (s.build limit depth).result = .ok f) :
    (s.build limit depth).events = (s.completedAt depth).flatMap reportsAt := by
  induction s using Statement.induction generalizing depth f with
  | step s ih =>
    have hfield : f = s.field := ((build_eq_ok_iff s depth f).mp h).2
    rw [completedAt_eq, List.flatMap_append, List.flatMap_singleton, reportsAt, ← hfield]
    obtain ⟨keyword, args⟩ := s
    rcases form_cases args with hform | ⟨a, b, rfl⟩ | ⟨a, b, c, entries, rfl, hc⟩ | ⟨a, b, body, rfl⟩
    · exact absurd h (build_noForm hform)
    · exact events_build_bare h
    · have hbody : body ⟨keyword, [a, b, c]⟩ = [] := by cases c <;> first | rfl | cases hc
      rw [hbody]
      exact events_build_options hc h
    · obtain ⟨fields, hfields, hevents⟩ := events_build_composite h
      have hbody : (buildEach limit (depth + 1) [] body.statements).events =
          (body.statements.flatMap (completedAt (depth + 1))).flatMap reportsAt :=
        events_buildEach_of (fun t ht f hf => ih t ht hf) hfields
      rw [hevents, hbody]
      rfl

theorem events_buildEach {ss : List Statement} {seen : List Text} {fields : List Field}
    (h : (buildEach limit depth seen ss).result = .ok fields) :
    (buildEach limit depth seen ss).events = (ss.flatMap (completedAt depth)).flatMap reportsAt :=
  events_buildEach_of (fun s _ _ hf => events_build s hf) h

end Statement

/-! ## Records -/

/-- The record of a field that is built at a depth. -/
def Field.builtRecord (f : Field) (depth : Nat) : Text :=
  (if f.fields.isEmpty then "Built leaf field '" else "Built composite field '") ++ f.id ++ "' of type '" ++ f.type ++
    "' at depth " ++ Text.ofNat depth

/-- The record of a value under the flag's name that the keyword of a field overrides. -/
def Field.overridingRecord (f : Field) (given : Value) : Text :=
  "Overriding 'required: " ++ given.display ++ "' option of field '" ++ f.id ++ "' with keyword value " ++
    (if f.required then "True" else "False")

/-- What the record of a forest begins with. -/
def Forest.recordFront : Text := "Built schema tree with "

/-- The record of a forest that is built. -/
def Forest.builtRecord (forest : List Field) : Text := recordFront ++ Text.ofNat forest.length ++ " top-level fields"

namespace Event

theorem message_built (f : Field) (depth : Nat) : message (.built f depth) = f.builtRecord depth := by
  have hleaf : ("Built leaf field '" : Text) = "Built " ++ "leaf" ++ " field '" := by decide +kernel
  have hcomposite : ("Built composite field '" : Text) = "Built " ++ "composite" ++ " field '" := by decide +kernel
  rw [message, Field.builtRecord, Field.isComposite]
  cases f.fields.isEmpty with
  | true => exact congrArg (· ++ f.id ++ "' of type '" ++ f.type ++ "' at depth " ++ Text.ofNat depth) hleaf.symm
  | false => exact congrArg (· ++ f.id ++ "' of type '" ++ f.type ++ "' at depth " ++ Text.ofNat depth) hcomposite.symm

theorem message_overriding (f : Field) (given : Value) :
    message (.overriding given f.id f.required) = f.overridingRecord given := by
  rw [message, Field.overridingRecord]
  cases f.required <;> rfl

theorem message_forestBuilt (forest : List Field) :
    message (.forestBuilt forest.length) = Forest.builtRecord forest := rfl

end Event

/-! ## Reports of failed builds -/

/-- The reports of fields, and of what their keywords override. -/
def Event.IsOfField : Event → Prop
  | .overriding .. => True
  | .built .. => True
  | _ => False

/-- No record of a field is taken for that of a forest. -/
theorem Event.IsOfField.not_forestRecord {e : Event} (h : e.IsOfField) : ¬ Forest.recordFront <+: e.message := by
  rintro ⟨rest, hrest⟩
  have hseventh : (Forest.recordFront ++ rest)[6]? = e.message[6]? := congrArg (·[6]?) hrest
  cases e with
  | overriding given field required => cases hseventh
  | built field depth =>
    rw [message_built, Field.builtRecord] at hseventh
    cases hfields : field.fields.isEmpty <;> rw [hfields] at hseventh <;> cases hseventh
  | _ => exact h

theorem Item.reports_settings (statement : Item) (id : Text) (required : Bool) (entries : List (Value × Value)) :
    (settings statement id required entries).Reports Event.IsOfField := by
  induction entries with
  | nil => exact Traced.reports_pure _ _
  | cons e rest ih =>
    obtain ⟨k, v⟩ := e
    unfold settings
    split
    · cases ‹_ = []›
    · rename_i key value tail heq
      cases heq
      split
      · exact Traced.reports_fail _ _
      · split
        · split
          · exact (Traced.reports_report trivial).bind fun _ => ih
          · exact ih
        · exact ih.bind fun _ => Traced.reports_pure _ _
    · exact Traced.reports_fail _ _

theorem Item.reports_complete (depth : Nat) (f : Field) : (complete depth f).Reports Event.IsOfField :=
  (Traced.reports_report trivial).bind fun _ => Traced.reports_pure _ _

theorem Item.reports_withOptions (limit : Nesting.Limit) (depth : Nat) (keyword : Text) (statement : Item)
    (name type : Value) (entries : List (Value × Value)) :
    (withOptions limit depth keyword statement name type entries).Reports Event.IsOfField :=
  (Traced.reports_ofExcept _ _).bind fun _ => (Traced.reports_ofExcept _ _).bind fun _ =>
    (reports_settings _ _ _ _).bind fun _ => reports_complete _ _

namespace Statement

variable {limit : Nesting.Limit} {depth : Nat}

theorem reports_buildEach_of {ss : List Statement} (seen : List Text)
    (hs : ∀ s ∈ ss, (s.build limit depth).Reports Event.IsOfField) :
    (buildEach limit depth seen ss).Reports Event.IsOfField := by
  induction ss generalizing seen with
  | nil => exact Traced.reports_pure _ _
  | cons s ss ih =>
    rw [List.forall_mem_cons] at hs
    refine hs.1.bind fun f => ?_
    split
    · exact Traced.reports_fail _ _
    · exact (ih _ hs.2).bind fun _ => Traced.reports_pure _ _

theorem reports_build (s : Statement) (depth : Nat) : (s.build limit depth).Reports Event.IsOfField := by
  induction s using Statement.induction generalizing depth with
  | step s ih =>
    obtain ⟨keyword, args⟩ := s
    show (Item.fieldOf limit depth keyword args).Reports Event.IsOfField
    unfold Item.fieldOf
    split
    · exact (Traced.reports_ofExcept _ _).bind fun _ => (Traced.reports_ofExcept _ _).bind fun _ =>
        Item.reports_complete _ _
    · exact Item.reports_withOptions _ _ _ _ _ _ _
    · exact Item.reports_withOptions _ _ _ _ _ _ _
    · refine (Traced.reports_ofExcept _ _).bind fun _ => (Traced.reports_ofExcept _ _).bind fun _ => ?_
      rw [Item.bodyFields_eq_buildEach]
      refine (reports_buildEach_of [] fun t ht => ih t ht (depth + 1)).bind fun fields => ?_
      split
      · exact Traced.reports_fail _ _
      · exact Item.reports_complete _ _
    · exact (Traced.reports_ofExcept _ _).bind fun _ => Traced.reports_fail _ _

end Statement

theorem Item.reports_buildValues (limit : Nesting.Limit) (seen : List Text) (xs : List Value) :
    (buildValues limit seen xs).Reports Event.IsOfField := by
  induction xs generalizing seen with
  | nil => exact Traced.reports_pure _ _
  | cons x xs ih =>
    cases x with
    | item i =>
      rw [buildValues, build_eq_buildEach]
      exact (Statement.reports_buildEach_of seen fun s _ => s.reports_build 1).bind fun _ =>
        (ih _).bind fun _ => Traced.reports_pure _ _
    | _ => exact Traced.reports_fail _ _

namespace Value

variable (limit : Nesting.Limit) (v : Value)

/-- Whether they can be built or not, the fields of a value are built without a report of a forest. -/
theorem reports_topFields : (v.topFields limit).Reports Event.IsOfField := by
  cases v with
  | item i =>
    rw [topFields, Item.build_eq_buildEach]
    exact Statement.reports_buildEach_of [] fun s _ => s.reports_build 1
  | list xs | tuple xs => exact Item.reports_buildValues limit [] xs
  | _ => exact Traced.reports_fail _ _

/-- The statements of a declaration with their depths, each behind those of its body. -/
def postOrder : List (Nat × Statement) := (v.statements?.getD []).flatMap (Statement.completedAt 1)

variable {limit v} {forest : List Field}

theorem map_postOrder (h : (v.buildForest limit).result = .ok forest) :
    v.postOrder.map (fun p => (p.1, p.2.field)) = Forest.postOrder forest := by
  obtain ⟨ss, hss, -, -, rfl⟩ := (builds_iff_statements limit v forest).mp h
  rw [postOrder, hss]
  exact Statement.map_completedFrom fun s _ => s.map_completedAt 1

theorem wellKeyed_of_mem_postOrder (hk : v.WellKeyed) : ∀ p ∈ v.postOrder, p.2.item.WellKeyed := by
  intro p hp
  unfold postOrder at hp
  cases hss : v.statements? with
  | none =>
    rw [hss] at hp
    cases hp
  | some ss =>
    rw [hss] at hp
    obtain ⟨s, hs, hp⟩ := List.mem_flatMap.mp hp
    exact Statement.wellKeyed_of_mem_completedAt (hk.statements? hss s hs) p hp

theorem events_of_builds (h : (v.buildForest limit).result = .ok forest) :
    (v.buildForest limit).events = v.postOrder.flatMap Statement.reportsAt ++ [.forestBuilt forest.length] := by
  obtain ⟨ss, hss, hbuilds⟩ := (buildForest_eq_ok_iff limit).mp h
  have htop := topFields_of_statements? limit hss
  have hresult : (v.topFields limit).result = .ok forest := htop ▸ hbuilds
  rw [buildForest, Traced.bind_eq_of_ok hresult, htop, Statement.events_buildEach hbuilds, postOrder, hss]
  rfl

theorem messages_of_builds (h : (v.buildForest limit).result = .ok forest) :
    (v.buildForest limit).events.map Event.message =
      v.postOrder.flatMap (fun p => p.2.overridings.map Event.message ++ [p.2.field.builtRecord p.1]) ++
        [Forest.builtRecord forest] := by
  have hrecords (p : Nat × Statement) :
      (Statement.reportsAt p).map Event.message = p.2.overridings.map Event.message ++ [p.2.field.builtRecord p.1] := by
    rw [Statement.reportsAt, List.map_append, List.map_singleton, Event.message_built]
  rw [events_of_builds h, List.map_append, List.map_flatMap, funext hrecords, List.map_singleton,
    Event.message_forestBuilt]

/-- A build that fails reports fields only. -/
theorem reports_of_fails {e : BuildError} (h : (v.buildForest limit).result = .error e) :
    (v.buildForest limit).Reports Event.IsOfField := by
  cases hresult : (v.topFields limit).result with
  | ok forest =>
    rw [buildForest, Traced.bind_eq_of_ok hresult] at h
    cases h
  | error e' =>
    have hevents : (v.buildForest limit).events = (v.topFields limit).events := by
      rw [buildForest, Traced.bind_eq, Traced.bind, hresult]
    rw [Traced.Reports, hevents]
    exact reports_topFields limit v

/-- A build that succeeds reports each field behind those below it, with the depth at which it
    stands in the forest. Right in front of it is reported the value under the flag's name among the
    options, if that does not count as what the keyword sets, and nothing else. The number of the
    roots comes last, and is not reported by a build that fails. The records are written accordingly:
    each says of a field whether it has fields below it, its id, its type and its depth, or which
    value its keyword overrides. Keys differ within a dictionary. -/
theorem events_buildForest (limit : Nesting.Limit) (v : Value) :
    (∀ forest, (v.buildForest limit).result = .ok forest → v.WellKeyed →
      v.postOrder.map (fun p => (p.1, p.2.field)) = Forest.postOrder forest ∧
        (Forest.postOrder forest).Perm ((Forest.placed forest).map fun p => (p.1.length, p.2)) ∧
        (v.buildForest limit).events =
          v.postOrder.flatMap (fun p => p.2.overridings ++ [.built p.2.field p.1]) ++
            [.forestBuilt forest.length] ∧
        (v.buildForest limit).events.map Event.message =
          v.postOrder.flatMap (fun p => p.2.overridings.map Event.message ++ [p.2.field.builtRecord p.1]) ++
            [Forest.builtRecord forest] ∧
        ∀ p ∈ v.postOrder,
          (∃ given, (.text Field.flagKey, given) ∈ p.2.entries ∧ ¬ given.CountsAs p.2.field.required ∧
              p.2.overridings = [.overriding given p.2.field.id p.2.field.required] ∧
              p.2.overridings.map Event.message = [p.2.field.overridingRecord given]) ∨
            (∀ given, (.text Field.flagKey, given) ∈ p.2.entries → given.CountsAs p.2.field.required) ∧
              p.2.overridings = []) ∧
    ∀ e, (v.buildForest limit).result = .error e →
      (∀ roots, .forestBuilt roots ∉ (v.buildForest limit).events) ∧
        ∀ t ∈ (v.buildForest limit).events.map Event.message, ¬ Forest.recordFront <+: t := by
  refine ⟨fun forest h hk => ⟨map_postOrder h, Forest.postOrder_perm_placed forest, events_of_builds h,
    messages_of_builds h, fun p hp => ?_⟩, fun e h => ⟨fun roots hroots => ?_, fun t ht => ?_⟩⟩
  · have hcases := Statement.overridings_cases (Statement.keysDiffer_entries (wellKeyed_of_mem_postOrder hk p hp))
    rcases hcases with ⟨given, hmem, hnot, hone⟩ | hnone
    · refine .inl ⟨given, hmem, ?_, ?_, ?_⟩
      · rwa [Statement.field_eq]
      · rwa [Statement.field_eq]
      · rw [hone, List.map_singleton, ← Event.message_overriding, Statement.field_eq]
        rfl
    · refine .inr ?_
      rwa [Statement.field_eq]
  · exact reports_of_fails h _ hroots
  · obtain ⟨e', he', rfl⟩ := List.mem_map.mp ht
    exact (reports_of_fails h e' he').not_forestRecord

/-- A required field below an optional one, whose options say that it is not required. -/
def overruled : Value :=
  .item (.statement Keyword.optional.name [.text "a", .text "obj", .nested (.single
    (.statement Keyword.requires.name [.text "b", .text "int", .dict [(.text Field.flagKey, .bool false)]]))])

theorem events_buildForest_overruled :
    overruled.WellKeyed ∧
      (overruled.buildForest .usual).result = .ok [.mk "a" "obj" [] false [] [.mk "b" "int" [] true [] []]] ∧
      overruled.postOrder.map (fun p => (p.1, p.2.field)) =
        [(2, .mk "b" "int" [] true [] []), (1, .mk "a" "obj" [] false [] [.mk "b" "int" [] true [] []])] ∧
      (overruled.buildForest .usual).events.map Event.message =
        (["Overriding 'required: False' option of field 'b' with keyword value True",
          "Built leaf field 'b' of type 'int' at depth 2", "Built composite field 'a' of type 'obj' at depth 1",
          "Built schema tree with 1 top-level fields"] : List Text) := by
  have hkeyed : overruled.WellKeyed := by
    simp [overruled, WellKeyed, Item.WellKeyed, AllWellKeyed, Declaration.WellKeyed, EntriesWellKeyed, KeysDiffer]
  have hdiffers : (Value.bool false).equals (.bool true) = false := by simp [equals, same, number?, sameNumber]
  have hsettings (s : Item) : s.settings "b" true [(.text Field.flagKey, .bool false)] =
      ⟨[.overriding (.bool false) "b" true], .ok []⟩ := by
    simp [Item.settings, hdiffers, isDeclaration]
    rfl
  have hinner (s : Item) :
      Item.withOptions .usual 2 Keyword.requires.name s (.text "b") (.text "int")
          [(.text Field.flagKey, .bool false)] =
        ⟨[.overriding (.bool false) "b" true, .built (.mk "b" "int" [] true [] []) 2],
          .ok (.mk "b" "int" [] true [] [])⟩ := by
    show (do
      let options ← s.settings "b" true [(.text Field.flagKey, .bool false)]
      Item.complete 2 (.mk "b" "int" options true [] [])) = _
    rw [hsettings]
    rfl
  have hbuilt : overruled.buildForest .usual =
      ⟨[.overriding (.bool false) "b" true, .built (.mk "b" "int" [] true [] []) 2,
          .built (.mk "a" "obj" [] false [] [.mk "b" "int" [] true [] []]) 1, .forestBuilt 1],
        .ok [.mk "a" "obj" [] false [] [.mk "b" "int" [] true [] []]]⟩ := by
    simp only [overruled, buildForest, topFields, Item.build, Item.fieldOf, Item.bodyFields, hinner]
    rfl
  have hresult := congrArg Traced.result hbuilt
  have hreports := (events_buildForest .usual overruled).1 _ hresult hkeyed
  refine ⟨hkeyed, hresult, hreports.1, ?_⟩
  rw [congrArg Traced.events hbuilt]
  decide +kernel

end Value

end FieldForest
