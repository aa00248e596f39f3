/-
  FieldForest.Proofs.Settings.InForce — which settings are in force, and when they are valid.

  A setting is what the last variable of its name says, else what the last binding of its name says,
  else its default. Settings are valid if the depth is a whole number that a build accepts, and the
  level has the name of one of the five.

  Proved:
  - `inForce_iff`: what is looked up is what is in force.
  - `load_eq_ok_iff`: settings are loaded exactly if both are valid, and are then those in force.
  - `exists_faults_iff` / `setting_mem_faults_iff`: otherwise there are faults, and what they name.
-/
import FieldForest.Settings.Basic
import FieldForest.Trace
import Mathlib.Tactic.SplitIfs

namespace FieldForest.Settings

/-! ## Where a setting comes from -/

/-- `InForce s name t`: from outside a setting has the text `t`, if it is set there. Variables count
    before bindings, and of several the last; a name may be in any case. -/
inductive InForce (s : Surroundings) (name : SettingName) : Option Text → Prop
  | fromVariable {before after : List (Text × Text)} {v : Text × Text} :
      s.environment = before ++ v :: after → v.1.lower = variableName name →
      (∀ u ∈ after, u.1.lower ≠ variableName name) → InForce s name (some v.2)
  | fromBinding {file : Text} {before after : List Bindings.Binding} {b : Bindings.Binding} :
      (∀ v ∈ s.environment, v.1.lower ≠ variableName name) → s.bindings = some file →
      Bindings.read s.environment file = before ++ b :: after → b.1.lower = variableName name →
      (∀ c ∈ after, c.1.lower ≠ variableName name) → InForce s name b.2
  | unset :
      (∀ v ∈ s.environment, v.1.lower ≠ variableName name) →
      (∀ file, s.bindings = some file →
        ∀ b ∈ Bindings.read s.environment file, b.1.lower ≠ variableName name) → InForce s name none

/-- The last of a list of which something holds. -/
theorem find?_reverse_eq_some_iff {α : Type} {p : α → Bool} {xs : List α} {x : α} :
    xs.reverse.find? p = some x ↔
      p x = true ∧ ∃ before after, xs = before ++ x :: after ∧ ∀ y ∈ after, p y = false := by
  rw [List.find?_eq_some_iff_append]
  constructor
  · rintro ⟨hp, as, bs, hxs, has⟩
    refine ⟨hp, bs.reverse, as.reverse, ?_, fun y hy => ?_⟩
    · rw [← List.reverse_reverse xs, hxs]
      simp
    · simpa using has y (List.mem_reverse.mp hy)
  · rintro ⟨hp, before, after, rfl, hafter⟩
    refine ⟨hp, after.reverse, before.reverse, by simp, fun y hy => ?_⟩
    simpa using hafter y (List.mem_reverse.mp hy)

theorem find?_reverse_eq_none_iff {α : Type} {p : α → Bool} {xs : List α} :
    xs.reverse.find? p = none ↔ ∀ x ∈ xs, p x = false := by
  simp

variable {s : Surroundings} {name : SettingName}

/-- What is looked up is in force. -/
theorem inForce_fromOutside? (s : Surroundings) (name : SettingName) : InForce s name (fromOutside? s name) := by
  unfold fromOutside?
  split
  · rename_i found value hfound
    obtain ⟨hname, before, after, hsplit, hafter⟩ := find?_reverse_eq_some_iff.mp hfound
    exact .fromVariable hsplit (eq_of_beq hname) fun u hu => by simpa using hafter u hu
  · rename_i hnone
    have hvariables : ∀ v ∈ s.environment, v.1.lower ≠ variableName name := by
      intro v hv
      simpa using find?_reverse_eq_none_iff.mp hnone v hv
    cases hfile : s.bindings with
    | none => exact .unset hvariables fun file h => by rw [hfile] at h; cases h
    | some file =>
      dsimp only [bind, Option.bind]
      cases hfound : (Bindings.read s.environment file).reverse.find? (·.1.lower == variableName name) with
      | none =>
        refine .unset hvariables fun file' h b hb => ?_
        obtain rfl := Option.some.inj (hfile.symm.trans h)
        simpa using find?_reverse_eq_none_iff.mp hfound b hb
      | some b =>
        obtain ⟨hname, before, after, hsplit, hafter⟩ := find?_reverse_eq_some_iff.mp hfound
        exact .fromBinding hvariables hfile hsplit (eq_of_beq hname) fun c hc => by simpa using hafter c hc

theorem fromOutside?_of_inForce {t : Option Text} (h : InForce s name t) : fromOutside? s name = t := by
  have hno {α : Type} {xs : List (Text × α)} (hxs : ∀ x ∈ xs, x.1.lower ≠ variableName name) :
      ∀ x ∈ xs, (x.1.lower == variableName name) = false := fun x hx => beq_eq_false_iff_ne.mpr (hxs x hx)
  unfold fromOutside?
  cases h with
  | @fromVariable before after v hsplit hname hafter =>
    have hfound : s.environment.reverse.find? (·.1.lower == variableName name) = some v :=
      find?_reverse_eq_some_iff.mpr ⟨by simp [hname], before, after, hsplit, hno hafter⟩
    rw [hfound]
  | @fromBinding file before after b hvariables hfile hsplit hname hafter =>
    have hfound : (Bindings.read s.environment file).reverse.find? (·.1.lower == variableName name) = some b :=
      find?_reverse_eq_some_iff.mpr ⟨by simp [hname], before, after, hsplit, hno hafter⟩
    rw [find?_reverse_eq_none_iff.mpr (hno hvariables), hfile]
    dsimp only [bind, Option.bind]
    rw [hfound]
  | unset hvariables hbindings =>
    rw [find?_reverse_eq_none_iff.mpr (hno hvariables)]
    cases hfile : s.bindings with
    | none => rfl
    | some file =>
      dsimp only [bind, Option.bind]
      rw [find?_reverse_eq_none_iff.mpr (hno (hbindings file hfile))]

theorem inForce_iff {t : Option Text} : InForce s name t ↔ fromOutside? s name = t := by
  constructor
  · exact fromOutside?_of_inForce
  · rintro rfl
    exact inForce_fromOutside? s name

/-! ## Valid settings -/

/-- The depth in force, if it is one. -/
inductive HasDepth (s : Surroundings) : Nesting.Limit → Prop
  | unset : InForce s .depth none → HasDepth s .usual
  | set {t : Text} {limit : Nesting.Limit} :
      InForce s .depth (some t) → wholeNumber (.text t) = .ok (limit.depth : Int) → HasDepth s limit

/-- The level in force, if it is one. -/
inductive HasLevel (s : Surroundings) : LogLevel → Prop
  | unset : InForce s .logLevel none → HasLevel s .warning
  | set {t : Text} {level : LogLevel} : InForce s .logLevel (some t) → t.map upper = level.name → HasLevel s level

/-- A depth and a level are in force. -/
def IsValid (s : Surroundings) : Prop := (∃ limit, HasDepth s limit) ∧ ∃ level, HasLevel s level

theorem depthOf_eq_ok_iff {v : Value} {n : Int} :
    depthOf v = .ok n ↔ ∃ limit : Nesting.Limit, wholeNumber v = .ok (limit.depth : Int) ∧ n = limit.depth := by
  unfold depthOf
  rw [bind_eq_ok_iff]
  constructor
  · rintro ⟨m, hm, hn⟩
    split_ifs at hn with hsmall hlarge
    cases hn
    have hcast : ((n.toNat : Nat) : Int) = n := by omega
    refine ⟨⟨n.toNat, by omega, by omega⟩, ?_, hcast.symm⟩
    rw [hm, hcast]
  · rintro ⟨limit, hlimit, rfl⟩
    have hone := limit.one_le
    have hmost := limit.le_most
    refine ⟨_, hlimit, ?_⟩
    rw [if_neg (by omega), if_neg (by omega)]

/-- No letter that is put into upper case becomes half of a surrogate pair, or stops being one. -/
theorem isLoneSurrogate_upper (c : CodePoint) : (upper c).isLoneSurrogate = c.isLoneSurrogate := by
  unfold upper
  split <;> rfl

theorem hasLoneSurrogate_map_upper (t : Text) : Text.hasLoneSurrogate (t.map upper) = t.hasLoneSurrogate := by
  unfold Text.hasLoneSurrogate
  rw [List.any_map]
  exact congrArg t.any (funext isLoneSurrogate_upper)

theorem find?_levels_eq_some_iff {t : Text} {level : LogLevel} :
    levels.find? (·.name == t) = some level ↔ t = level.name := by
  constructor
  · intro h
    have hname := List.find?_some h
    exact (eq_of_beq hname).symm
  · rintro rfl
    cases level <;> decide

theorem logLevelOf_eq_ok_iff {t : Text} {level : LogLevel} :
    logLevelOf (.text t) = .ok level ↔ t.map upper = level.name := by
  have hname (level : LogLevel) : level.name.hasLoneSurrogate = false := by cases level <;> decide
  rw [← find?_levels_eq_some_iff]
  cases hlone : t.hasLoneSurrogate with
  | true =>
    have hnone : levels.find? (·.name == t.map upper) ≠ some level := by
      intro h
      rw [← hasLoneSurrogate_map_upper, find?_levels_eq_some_iff.mp h, hname] at hlone
      cases hlone
    simp [logLevelOf, hlone, hnone]
  | false =>
    cases hfound : levels.find? (·.name == t.map upper) <;> simp [logLevelOf, hlone, hfound]

/-! ## Loaded settings -/

/-- The depth that a text from outside sets, or that is set without one. -/
def depthFrom : Option Text → Except SettingProblem Int
  | none => .ok Nesting.usual
  | some t => depthOf (.text t)

/-- The level that a text from outside names, or that is in force without one. -/
def levelFrom : Option Text → Except SettingProblem LogLevel
  | none => .ok .warning
  | some t => logLevelOf (.text t)

theorem depthFrom_eq_ok_iff {n : Int} :
    depthFrom (fromOutside? s .depth) = .ok n ↔ ∃ limit, HasDepth s limit ∧ n = limit.depth := by
  constructor
  · intro h
    cases hfrom : fromOutside? s .depth with
    | none =>
      rw [hfrom] at h
      cases h
      exact ⟨.usual, .unset (inForce_iff.mpr hfrom), rfl⟩
    | some t =>
      rw [hfrom] at h
      obtain ⟨limit, hlimit, hn⟩ := depthOf_eq_ok_iff.mp h
      exact ⟨limit, .set (inForce_iff.mpr hfrom) hlimit, hn⟩
  · rintro ⟨limit, hlimit, rfl⟩
    cases hlimit with
    | unset hnone =>
      rw [inForce_iff.mp hnone]
      rfl
    | set hsome hwhole =>
      rw [inForce_iff.mp hsome]
      exact depthOf_eq_ok_iff.mpr ⟨limit, hwhole, rfl⟩

theorem levelFrom_eq_ok_iff {level : LogLevel} :
    levelFrom (fromOutside? s .logLevel) = .ok level ↔ HasLevel s level := by
  constructor
  · intro h
    cases hfrom : fromOutside? s .logLevel with
    | none =>
      rw [hfrom] at h
      cases h
      exact .unset (inForce_iff.mpr hfrom)
    | some t =>
      rw [hfrom] at h
      exact .set (inForce_iff.mpr hfrom) (logLevelOf_eq_ok_iff.mp h)
  · intro hlevel
    cases hlevel with
    | unset hnone =>
      rw [inForce_iff.mp hnone]
      rfl
    | set hsome hname =>
      rw [inForce_iff.mp hsome]
      exact logLevelOf_eq_ok_iff.mpr hname

/-- Settings are loaded from the two texts alone, and each of the two is found to be at fault by itself. -/
theorem load_cases (s : Surroundings) :
    (∃ n level, depthFrom (fromOutside? s .depth) = .ok n ∧ levelFrom (fromOutside? s .logLevel) = .ok level ∧
      load [] s = .ok ⟨n, level⟩) ∨
    (∃ p level, depthFrom (fromOutside? s .depth) = .error p ∧ levelFrom (fromOutside? s .logLevel) = .ok level ∧
      load [] s = .error [⟨.depth, p⟩]) ∨
    (∃ n q, depthFrom (fromOutside? s .depth) = .ok n ∧ levelFrom (fromOutside? s .logLevel) = .error q ∧
      load [] s = .error [⟨.logLevel, q⟩]) ∨
    ∃ p q, depthFrom (fromOutside? s .depth) = .error p ∧ levelFrom (fromOutside? s .logLevel) = .error q ∧
      load [] s = .error [⟨.depth, p⟩, ⟨.logLevel, q⟩] := by
  have hvalue (name : SettingName) : value? [] s name = (fromOutside? s name).map .text := rfl
  unfold load
  rw [hvalue, hvalue]
  cases fromOutside? s .depth with
  | none =>
    cases fromOutside? s .logLevel with
    | none => simp [depthFrom, levelFrom]
    | some u => cases hlevel : logLevelOf (.text u) <;> simp [depthFrom, levelFrom, hlevel]
  | some t =>
    cases fromOutside? s .logLevel with
    | none => cases hdepth : depthOf (.text t) <;> simp [depthFrom, levelFrom, hdepth]
    | some u =>
      cases hdepth : depthOf (.text t) <;> cases hlevel : logLevelOf (.text u) <;>
        simp [depthFrom, levelFrom, hdepth, hlevel]

/-- What is loaded is what is in force. -/
theorem load_eq_ok_iff {settings : Settings} :
    load [] s = .ok settings ↔
      (∃ limit, HasDepth s limit ∧ settings.depth = limit.depth) ∧ HasLevel s settings.logLevel := by
  rw [← depthFrom_eq_ok_iff, ← levelFrom_eq_ok_iff]
  obtain ⟨settingsDepth, settingsLevel⟩ := settings
  rcases load_cases s with ⟨n, level, hdepth, hlevel, hload⟩ | ⟨p, level, hdepth, hlevel, hload⟩ |
    ⟨n, q, hdepth, hlevel, hload⟩ | ⟨p, q, hdepth, hlevel, hload⟩ <;> simp [hdepth, hlevel, hload]

/-- There are faults exactly if one of the two is not in force. -/
theorem exists_faults_iff : (∃ faults, load [] s = .error faults) ↔ ¬ IsValid s := by
  constructor
  · rintro ⟨faults, hfaults⟩ ⟨⟨limit, hlimit⟩, level, hlevel⟩
    have hok : load [] s = .ok ⟨limit.depth, level⟩ := load_eq_ok_iff.mpr ⟨⟨limit, hlimit, rfl⟩, hlevel⟩
    rw [hfaults] at hok
    cases hok
  · intro hvalid
    cases hload : load [] s with
    | error faults => exact ⟨faults, rfl⟩
    | ok settings =>
      obtain ⟨⟨limit, hlimit, -⟩, hlevel⟩ := load_eq_ok_iff.mp hload
      exact absurd ⟨⟨limit, hlimit⟩, _, hlevel⟩ hvalid

/-- The faults name what is not in force, each once. -/
theorem setting_mem_faults_iff {faults : List SettingFault} (h : load [] s = .error faults) :
    (.depth ∈ faults.map (·.setting) ↔ ¬ ∃ limit, HasDepth s limit) ∧
      (.logLevel ∈ faults.map (·.setting) ↔ ¬ ∃ level, HasLevel s level) ∧ (faults.map (·.setting)).Nodup := by
  have hdepths : (∃ limit, HasDepth s limit) ↔ ∃ n, depthFrom (fromOutside? s .depth) = .ok n := by
    simp only [depthFrom_eq_ok_iff]
    constructor
    · rintro ⟨limit, hlimit⟩
      exact ⟨_, limit, hlimit, rfl⟩
    · rintro ⟨n, limit, hlimit, -⟩
      exact ⟨limit, hlimit⟩
  simp only [hdepths, ← levelFrom_eq_ok_iff]
  rcases load_cases s with ⟨n, level, hdepth, hlevel, hload⟩ | ⟨p, level, hdepth, hlevel, hload⟩ |
    ⟨n, q, hdepth, hlevel, hload⟩ | ⟨p, q, hdepth, hlevel, hload⟩ <;> rw [hload] at h <;> cases h <;>
      simp [hdepth, hlevel]

end FieldForest.Settings
