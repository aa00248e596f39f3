/-
  FieldForest.Proofs.Command.Limits — the limit that a run builds within.

  The settings are looked up before the file is read, and a depth on the command line takes the
  place of theirs only after they are found valid. So faulty settings are reported whatever the
  command line says, and each depth that is left to build with is a limit that a build accepts.

  Proved:
  - `settings_eq_ok_iff` / `settings_eq_faults_iff`: the settings that a run has, and when it has none.
  - `run_of_trouble` / `run_of_valid`: what becomes of a run in both cases.
  - `show_of_trouble` / `check_of_trouble` / `exists_wordsFor_faults`: how faults are reported.
  - `inRange_run`: no run asks for a build that there is no limit for.
  - `limit_of_run`: all of it together.
-/
import FieldForest.Proofs.Command.Messages
import FieldForest.Proofs.Settings.PlainLines

namespace FieldForest.Command

open Settings (HasDepth HasLevel IsValid)

/-! ## Requests that handle a file -/

/-- What is done with a file: which depth is asked for, how it is said what goes wrong, and what
    becomes of the forest that is built. -/
structure Handling where
  path : Path
  depth : Option Nesting.Limit
  report : Trouble → Message
  next : World → List Field → Ending

def Handling.ofShow (path : Path) (format : Format) (output : Option Path) (depth : Option Nesting.Limit) : Handling where
  path := path
  depth := depth
  report := .failedShow
  next w forest := w.showForest path format output forest

def Handling.ofCheck (path : Path) (depth : Option Nesting.Limit) : Handling where
  path := path
  depth := depth
  report := .failedCheck path
  next w forest := printed w.terminal none (Message.counted path forest).markup

/-- What a request does with a file; one for an unknown format does nothing with it. -/
def Request.handling? : Request → Option Handling
  | .help => none
  | .showing path name output depth => (Format.ofText? name).map fun format => .ofShow path format output depth
  | .checking path depth => some (.ofCheck path depth)

/-- The forest that the file at a path declares within a limit. -/
def World.built (w : World) (path : Path) (limit : Nesting.Limit) : Except (Break ⊕ Trouble) (List Field) :=
  match (Declaration.ofFile w.stack w.read path.toText).result with
  | .error e =>
    match breakOf? e with
    | some b => .error (.inl b)
    | none => .error (.inr (.file e))
  | .ok declaration => (declaration.toValue.buildForest limit).result.mapError (.inr ∘ .build)

/-- The end of a run that builds within a limit. -/
def World.within (w : World) (job : Handling) (limit : Nesting.Limit) : Ending :=
  Ending.behind w.notices <| match w.built job.path limit with
    | .error (.inl b) => .broken b none
    | .error (.inr trouble) => (job.report trouble).said w.terminal none fun t => failed none (t ++ "\n")
    | .ok forest => job.next w forest

section

variable {w : World} {s : Settings.Surroundings} {texts : List Text} {request : Request} {job : Handling}
  {depth : Option Nesting.Limit} {limit : Nesting.Limit} {level : LogLevel}

/-- Both commands handle a file in the same way. -/
theorem run_eq_handled (hrequest : Request.ofTexts? texts = some request) (hjob : request.handling? = some job) :
    ∃ front, (∀ trouble, (job.report trouble).markup = front ++ Markup.escape trouble.message) ∧
      run w texts = w.handled job.path job.depth front (job.next w) := by
  unfold run
  rw [hrequest]
  cases request with
  | help => cases hjob
  | showing path name output depth =>
    obtain ⟨format, hformat, rfl⟩ := Option.map_eq_some_iff.mp hjob
    obtain rfl := Format.eq_name_of_ofText? hformat
    exact ⟨errorFront, fun _ => rfl, World.runShow_eq w path depth format output⟩
  | checking path depth =>
    cases hjob
    exact ⟨"[red]✗[/red] " ++ path.toText ++ ": ", fun _ => rfl, rfl⟩

/-! ## The settings of a run -/

theorem ofInt_depth (limit : Nesting.Limit) : Nesting.Limit.ofInt limit.depth = .ok limit := by
  unfold Nesting.Limit.ofInt
  rw [dif_pos ⟨limit.one_le, limit.le_most⟩]
  rfl

theorem withDepth_eq (depth : Option Nesting.Limit) (limit : Nesting.Limit) (level : LogLevel) :
    Settings.withDepth ⟨limit.depth, level⟩ (depth.map fun limit => (limit.depth : Int)) =
      ⟨(depth.getD limit).depth, level⟩ := by
  cases depth <;> rfl

/-- The settings of a run are those in force, but for a depth on the command line. -/
theorem settings_eq_ok_iff {settings : Settings} :
    w.settings depth = .ok settings ↔
      ∃ s limit level, w.surroundings = .ok s ∧ HasDepth s limit ∧ HasLevel s level ∧
        settings = ⟨(depth.getD limit).depth, level⟩ := by
  unfold World.settings
  cases w.surroundings with
  | error e => simp
  | ok s =>
    dsimp only
    constructor
    · intro h
      cases hload : Settings.load [] s with
      | error faults =>
        rw [hload] at h
        cases h
      | ok loaded =>
        rw [hload] at h
        obtain ⟨n, level⟩ := loaded
        obtain ⟨⟨limit, hlimit, hn⟩, hlevel⟩ := Settings.load_eq_ok_iff.mp hload
        cases hn
        exact ⟨s, limit, level, rfl, hlimit, hlevel, (Except.ok.inj h).symm.trans (withDepth_eq depth limit level)⟩
    · rintro ⟨_, limit, level, hs, hlimit, hlevel, rfl⟩
      cases hs
      have hload : Settings.load [] s = .ok ⟨limit.depth, level⟩ :=
        Settings.load_eq_ok_iff.mpr ⟨⟨limit, hlimit, rfl⟩, hlevel⟩
      rw [hload]
      exact congrArg Except.ok (withDepth_eq depth limit level)

/-- A depth on the command line does not keep faults from being found. -/
theorem settings_eq_faults_iff (hs : w.surroundings = .ok s) {faults : List SettingFault} {details : List Text} :
    w.settings depth = .error (.inr (.settings faults details)) ↔
      Settings.load [] s = .error faults ∧ details = w.details faults := by
  unfold World.settings
  rw [hs]
  dsimp only
  cases Settings.load [] s with
  | ok settings => simp
  | error found =>
    simp only [Except.error.injEq, Sum.inr.injEq, Trouble.settings.injEq]
    constructor
    · rintro ⟨rfl, rfl⟩
      exact ⟨rfl, rfl⟩
    · rintro ⟨rfl, rfl⟩
      exact ⟨rfl, rfl⟩

theorem forest_eq_built {settings : Settings} {path : Path} (hdepth : Nesting.Limit.ofInt settings.depth = .ok limit) :
    w.forest path settings = w.built path limit := by
  unfold World.forest World.built
  cases (Declaration.ofFile w.stack w.read path.toText).result with
  | ok declaration =>
    dsimp only
    rw [hdepth]
  | error e => rfl

/-! ## Runs -/

theorem run_of_valid (hrequest : Request.ofTexts? texts = some request) (hjob : request.handling? = some job)
    (hs : w.surroundings = .ok s) (hlimit : HasDepth s limit) (hlevel : HasLevel s level) :
    run w texts = w.within job (job.depth.getD limit) := by
  obtain ⟨front, hmarkup, hrun⟩ := run_eq_handled (w := w) hrequest hjob
  have hsettings : w.settings job.depth = .ok ⟨(job.depth.getD limit).depth, level⟩ :=
    settings_eq_ok_iff.mpr ⟨s, limit, level, hs, hlimit, hlevel, rfl⟩
  have hforest : w.forest job.path ⟨(job.depth.getD limit).depth, level⟩ = w.built job.path (job.depth.getD limit) :=
    forest_eq_built (ofInt_depth _)
  rw [hrun]
  unfold World.handled World.underSettings World.within
  rw [hsettings]
  dsimp only
  rw [hforest]
  cases w.built job.path (job.depth.getD limit) with
  | ok forest => rfl
  | error e =>
    cases e with
    | inl b => rfl
    | inr trouble =>
      show (refused w.terminal none (front ++ Markup.escape trouble.message)).behind w.notices = _
      rw [← hmarkup, refused_eq_said]

/-- The end of a run that finds faults in the settings. -/
theorem run_of_trouble (hrequest : Request.ofTexts? texts = some request) (hjob : request.handling? = some job)
    {trouble : Trouble} (htrouble : w.settings job.depth = .error (.inr trouble)) :
    run w texts = (job.report trouble).said w.terminal none fun t => (failed none (t ++ "\n")).behind w.notices := by
  obtain ⟨front, hmarkup, hrun⟩ := run_eq_handled (w := w) hrequest hjob
  rw [hrun, World.handled_eq_reported (.settings htrouble), reported, ← hmarkup, refused_eq_said, behind_said]

theorem said_of_plain {m : Message} (hm : m.IsPlain) (hkeeps : w.terminal.Keeps m.markup) :
    (m.said w.terminal none fun t => (failed none (t ++ "\n")).behind w.notices) = w.tells m.words := by
  rw [Message.said_of_ok ((Message.tells hm).shownMarked_of_keeps hkeeps)]
  rfl

theorem status_said {m : Message} (w : World) :
    (m.said w.terminal none fun t => (failed none (t ++ "\n")).behind w.notices).status = 1 := by
  unfold Message.said
  cases Console.shownMarked w.terminal m.markup <;> rfl

/-- `show` tells every trouble. -/
theorem show_of_trouble {path : Path} {name : Text} {output : Option Path}
    (hrequest : Request.ofTexts? texts = some (.showing path name output depth))
    (hknown : (Format.ofText? name).isSome = true) {trouble : Trouble}
    (htrouble : w.settings depth = .error (.inr trouble)) :
    run w texts = w.tells ("Error: " ++ w.wordsFor trouble) := by
  obtain ⟨format, hformat⟩ := Option.isSome_iff_exists.mp hknown
  obtain rfl := Format.eq_name_of_ofText? hformat
  unfold run
  rw [hrequest]
  exact (World.runShow_eq w path depth format output).trans
    (World.handled_of_troubled (isFront_error _) (.settings htrouble))

/-- `check` tells every trouble of a file whose path is not taken for markup or for emoji. -/
theorem check_of_trouble {path : Path} (hrequest : Request.ofTexts? texts = some (.checking path depth))
    (hbracket : .char '[' ∉ path.toText) (hemoji : w.terminal.emoji (path.toText ++ ":") = path.toText ++ ":")
    {trouble : Trouble} (htrouble : w.settings depth = .error (.inr trouble)) :
    run w texts = w.tells ("✗ " ++ path.toText ++ ": " ++ w.wordsFor trouble) := by
  unfold run
  rw [hrequest]
  exact (World.runCheck_eq w path depth).trans
    (World.handled_of_troubled (isFront_check hbracket hemoji) (.settings htrouble))

/-! ## The report of faulty settings -/

theorem not_mem_faultCount {c : Char} (hdigit : c.isDigit = false)
    (hword : .char c ∉ (" validation errors for Config" : Text)) (n : Nat) : .char c ∉ faultCount n := by
  have hone : (" validation error for Config" : Text) ⊆ " validation errors for Config" := by decide
  simp only [faultCount, List.mem_append, not_or]
  refine ⟨not_mem_ofNat hdigit n, ?_⟩
  split
  · exact fun h => hword (hone h)
  · exact hword

theorem emoji_faultCount (terminal : Terminal) (n : Nat) : terminal.emoji (faultCount n) = faultCount n := by
  refine terminal.emoji_of_count_le _ ?_
  rw [List.count_eq_zero.mpr (not_mem_faultCount rfl (by decide) n)]
  exact Nat.zero_le 1

theorem escape_faultCount (n : Nat) : Markup.escape (faultCount n) = faultCount n := by
  have hlast : (faultCount n).getLast? = some (.char 'g') := by
    unfold faultCount
    rw [List.getLast?_append]
    split <;> rfl
  obtain ⟨u, hu⟩ := List.getLast?_eq_some_iff.mp hlast
  have hbracket : .char '[' ∉ u := by
    have h := not_mem_faultCount (c := '[') rfl (by decide) n
    rw [hu, List.mem_append, not_or] at h
    exact h.1
  have hescape := Markup.escape_append hbracket (c := .char 'g') (by decide) (by decide) []
  rw [hu, hescape, Markup.escape_nil]

/-- The report begins with the number of faults. -/
theorem exists_wordsFor_faults (w : World) (faults : List SettingFault) (details : List Text) :
    ∃ rest, w.wordsFor (.settings faults details) = faultCount faults.length ++ rest := by
  have hbracket := not_mem_faultCount (c := '[') rfl (by decide) faults.length
  rw [World.wordsFor, Trouble.message]
  cases details with
  | nil =>
    rw [List.flatMap_nil, List.append_nil, escape_faultCount, w.terminal.emojied_of_noBracket hbracket, emoji_faultCount]
    exact ⟨[], (List.append_nil _).symm⟩
  | cons line lines =>
    rw [List.flatMap_cons, List.cons_append, w.terminal.emojied_escape_append hbracket (.inr rfl), emoji_faultCount]
    exact ⟨_, rfl⟩

/-- Nothing in the report is taken for markup, unless there is a backslash in the details. -/
theorem isKeptAlone_faults (faults : List SettingFault) {details : List Text} (h : ∀ line ∈ details, .char '\\' ∉ line) :
    Markup.IsKeptAlone (Trouble.settings faults details).message := by
  refine Markup.leftOf_eq_iff.mp (Markup.leftOf_of_noBackslash ?_)
  simp only [Trouble.message, List.mem_append, List.mem_flatMap, List.mem_cons, not_or, not_exists, not_and]
  exact ⟨not_mem_faultCount rfl (by decide) _, fun line hline => ⟨by decide, h line hline⟩⟩

end

/-! ## No build is out of range -/

/-- A run that does not ask for a build that there is no limit for. -/
def Ending.InRange (e : Ending) : Prop := ∀ written, e ≠ .broken .depthOutOfRange written

namespace Ending.InRange

theorem answered (a : Answer) : InRange (.answered a) := by
  intro written h
  cases h

theorem broken {b : Break} (hb : b ≠ .depthOutOfRange) (written : Option (Path × List UInt8)) :
    InRange (.broken b written) := by
  intro written' h
  cases h
  exact hb rfl

theorem markup (e : Markup.MarkupError) (written : Option (Path × List UInt8)) : InRange (.broken (.markup e) written) :=
  broken (by intro h; cases h) written

theorem succeeded (written : Option (Path × List UInt8)) (output : Text) : InRange (succeeded written output) := by
  unfold Command.succeeded
  split
  · exact broken (by intro h; cases h) written
  · exact answered _

theorem said {m : Message} {terminal : Terminal} {written : Option (Path × List UInt8)} {finish : Text → Ending}
    (hfinish : ∀ t, (finish t).InRange) : (m.said terminal written finish).InRange := by
  unfold Message.said
  split
  · exact hfinish _
  · exact markup _ _

theorem printed (terminal : Terminal) (written : Option (Path × List UInt8)) (line : Text) :
    InRange (printed terminal written line) := by
  unfold Command.printed
  split
  · exact succeeded _ _
  · exact markup _ _

theorem refused (terminal : Terminal) (written : Option (Path × List UInt8)) (line : Text) :
    InRange (refused terminal written line) := by
  unfold Command.refused
  split
  · exact answered _
  · exact markup _ _

theorem behind {e : Ending} (he : e.InRange) (notices : Text) : (e.behind notices).InRange := by
  cases e with
  | answered a => exact answered _
  | _ => exact he

theorem writeOpened (w : World) (target : Path) (t : Text) : InRange (w.writeOpened target t) := by
  unfold World.writeOpened
  split
  · exact broken (by intro h; cases h) _
  · dsimp only
    split
    · exact refused _ _ _
    · exact printed _ _ _

theorem showForest (w : World) (path : Path) (format : Format) (output : Option Path) (forest : List Field) :
    InRange (w.showForest path format output forest) := by
  unfold World.showForest
  split
  · split
    · exact succeeded _ _
    · exact markup _ _
  · split
    · exact broken (by intro h; cases h) _
    · split
      · exact succeeded _ _
      · split
        · exact refused _ _ _
        · exact writeOpened _ _ _

end Ending.InRange

section

variable {w : World} {texts : List Text} {request : Request} {job : Handling}

theorem inRange_next (w : World) (forest : List Field) (hjob : request.handling? = some job) :
    (job.next w forest).InRange := by
  cases request with
  | help => cases hjob
  | showing path name output depth =>
    obtain ⟨format, -, rfl⟩ := Option.map_eq_some_iff.mp hjob
    exact Ending.InRange.showForest w path format output forest
  | checking path depth =>
    cases hjob
    exact Ending.InRange.printed w.terminal none _

theorem built_ne_outOfRange (w : World) (path : Path) (limit : Nesting.Limit) :
    w.built path limit ≠ .error (.inl .depthOutOfRange) := by
  unfold World.built
  split
  · rename_i e _
    split
    · rename_i b hbreak
      rcases undeclared_of_breakOf hbreak with ⟨n, -, rfl⟩ | ⟨-, rfl⟩ <;> intro h <;> cases h
    · intro h
      cases h
  · rename_i d _
    cases (d.toValue.buildForest limit).result <;> intro h <;> cases h

theorem inRange_within (w : World) (limit : Nesting.Limit) (hjob : request.handling? = some job) :
    (w.within job limit).InRange := by
  refine Ending.InRange.behind ?_ _
  split
  · rename_i b hb
    refine .broken (fun h => ?_) none
    subst h
    exact built_ne_outOfRange w job.path limit hb
  · exact .said fun t => .answered _
  · exact inRange_next w _ hjob

/-- The settings are looked up without a build. -/
theorem settings_ne_outOfRange (w : World) (depth : Option Nesting.Limit) :
    w.settings depth ≠ .error (.inl .depthOutOfRange) := by
  unfold World.settings World.surroundings
  intro h
  split at h
  · rename_i e hsurroundings
    cases h
    split at hsurroundings
    · split at hsurroundings <;> cases hsurroundings
    · split at hsurroundings <;> cases hsurroundings
  · split at h <;> cases h

/-- No run asks for a build that there is no limit for. -/
theorem inRange_run (w : World) (texts : List Text) : (run w texts).InRange := by
  cases hrequest : Request.ofTexts? texts with
  | none =>
    unfold run
    rw [hrequest]
    intro written h
    cases h
  | some request =>
    cases hjob : request.handling? with
    | none =>
      cases request with
      | help =>
        unfold run
        rw [hrequest]
        intro written h
        cases h
      | showing path name output depth =>
        have hformat : Format.ofText? name = none := Option.map_eq_none_iff.mp hjob
        rw [(World.Says.unknownFormat (w := w) hformat).run_eq hrequest]
        exact .said fun t => .answered _
      | checking path depth => cases hjob
    | some job =>
      cases hsettings : w.settings job.depth with
      | ok settings =>
        obtain ⟨s, limit, level, hs, hlimit, hlevel, -⟩ := settings_eq_ok_iff.mp hsettings
        rw [run_of_valid hrequest hjob hs hlimit hlevel]
        exact inRange_within w _ hjob
      | error e =>
        cases e with
        | inl b =>
          obtain ⟨front, -, hrun⟩ := run_eq_handled (w := w) hrequest hjob
          rw [hrun, World.handled_of_faulty hsettings]
          refine .broken (fun h => ?_) none
          subst h
          exact settings_ne_outOfRange w job.depth hsettings
        | inr trouble =>
          rw [run_of_trouble hrequest hjob hsettings]
          exact .said fun t => .answered _

end

/-! ## All runs -/

/-- A command that handles a file finds faults in the settings exactly if the depth and the level in force
    are not both valid, whatever depth the command line asks for, and the faults name those that are not.
    It reports them then, in words that begin with their number, and fails; `show` tells the report whatever
    it is asked for, and `check` if nothing in the path is taken for markup or for an emoji. Otherwise the command
    builds within the depth that the command line asks for, or else the one in force. And no run asks for a
    build that there is no limit for. -/
theorem limit_of_run (w : World) (texts : List Text) :
    (∀ s request job, w.surroundings = .ok s → Request.ofTexts? texts = some request → request.handling? = some job →
      ((∃ faults details, w.settings job.depth = .error (.inr (.settings faults details))) ↔ ¬ IsValid s) ∧
      (∀ faults details, w.settings job.depth = .error (.inr (.settings faults details)) →
        (.depth ∈ faults.map (·.setting) ↔ ¬ ∃ limit, HasDepth s limit) ∧
        (.logLevel ∈ faults.map (·.setting) ↔ ¬ ∃ level, HasLevel s level) ∧
        (run w texts).status = 1 ∧
        (∃ rest, w.wordsFor (.settings faults details) = faultCount faults.length ++ rest) ∧
        (∀ path name output depth, request = .showing path name output depth →
          run w texts = w.tells ("Error: " ++ w.wordsFor (.settings faults details))) ∧
        (∀ path depth, request = .checking path depth → .char '[' ∉ path.toText →
          w.terminal.emoji (path.toText ++ ":") = path.toText ++ ":" →
            run w texts = w.tells ("✗ " ++ path.toText ++ ": " ++ w.wordsFor (.settings faults details))) ∧
        ((job.report (.settings faults details)).IsPlain → w.terminal.Keeps (job.report (.settings faults details)).markup →
          run w texts = w.tells (job.report (.settings faults details)).words) ∧
        run w texts = (job.report (.settings faults details)).said w.terminal none
          fun t => (failed none (t ++ "\n")).behind w.notices) ∧
      ∀ limit level, HasDepth s limit → HasLevel s level → run w texts = w.within job (job.depth.getD limit)) ∧
    (∀ faults details, (∀ line ∈ details, .char '\\' ∉ line) → (Message.failedShow (.settings faults details)).IsPlain ∧
      ∀ path : Path, .char '[' ∉ path.toText → (Message.failedCheck path (.settings faults details)).IsPlain) ∧
    ∀ written, run w texts ≠ .broken .depthOutOfRange written := by
  refine ⟨fun s request job hs hrequest hjob => ⟨?_, fun faults details hfaults => ?_, ?_⟩,
    fun faults details hdetails => ⟨isKeptAlone_faults faults hdetails, fun path hpath => ?_⟩, inRange_run w texts⟩
  · rw [← Settings.exists_faults_iff]
    refine exists_congr fun faults => ⟨?_, fun h => ⟨_, (settings_eq_faults_iff hs).mpr ⟨h, rfl⟩⟩⟩
    rintro ⟨details, h⟩
    exact ((settings_eq_faults_iff hs).mp h).1
  · obtain ⟨hdepth, hlevel, -⟩ := Settings.setting_mem_faults_iff ((settings_eq_faults_iff hs).mp hfaults).1
    have hrun := run_of_trouble hrequest hjob hfaults
    refine ⟨hdepth, hlevel, ?_, exists_wordsFor_faults w faults details, ?_, ?_, fun hplain hkeeps => ?_, hrun⟩
    · rw [hrun]
      exact status_said w
    · rintro path name output depth rfl
      obtain ⟨format, hformat, rfl⟩ := Option.map_eq_some_iff.mp hjob
      exact show_of_trouble hrequest (Option.isSome_of_eq_some hformat) hfaults
    · rintro path depth rfl hbracket hemoji
      cases hjob
      exact check_of_trouble hrequest hbracket hemoji hfaults
    · rw [hrun]
      exact said_of_plain hplain hkeeps
  · intro limit level hlimit hlevel
    exact run_of_valid hrequest hjob hs hlimit hlevel
  · exact ⟨unmarked_of_not_mem hpath, isKeptAlone_faults faults hdetails⟩

/-- What is said of a depth that is too small. -/
def smallDepthReport : List Text :=
  ["max_nesting_depth",
    "  Input should be greater than or equal to 1 [type=greater_than_equal, input_value='0', input_type=str]"]

/-- A folder with one file, where a variable sets the level and a line of bindings the depth. By another
    variable reports name no address to read more at. -/
def boundFolder (depth : Text) : World where
  environment := [("param_schema_log_level", "info"), ("PYDANTIC_ERRORS_INCLUDE_URL", "0")]
  read path :=
    if path = .ofText ".env" then
      .ok ((Bindings.plainFile [("PARAM_SCHEMA_MAX_NESTING_DEPTH", depth)]).map fun c => UInt8.ofNat c.toNat)
    else oneFile.read path
  write _ := .error .missing
  store _ _ := .ok ()
  terminal := .plain
  stack := .usual
  details _ := smallDepthReport

/-- What stands outside the folder. -/
def boundSurroundings (depth : Text) : Settings.Surroundings :=
  ⟨(boundFolder depth).environment, some (Bindings.plainFile [("PARAM_SCHEMA_MAX_NESTING_DEPTH", depth)])⟩

theorem isPlain_three : Bindings.IsPlain ("PARAM_SCHEMA_MAX_NESTING_DEPTH", "3") where
  name_ne_nil := by decide
  name := by decide
  value := by decide
  first := by decide
  last := by decide

/-- Three is the depth in force. -/
theorem hasDepth_bound : HasDepth (boundSurroundings "3") ⟨3, by decide, by decide⟩ := by
  have hforce : Settings.InForce (boundSurroundings "3") .depth (some "3") :=
    @Settings.inForce_of_plainLine (boundFolder "3").environment [] [] ("PARAM_SCHEMA_MAX_NESTING_DEPTH", "3") .depth
      (List.forall_mem_singleton.mpr isPlain_three) (by decide) (by decide +kernel) (by decide +kernel)
      (List.forall_mem_nil _)
  exact .set hforce rfl

theorem hasLevel_bound (depth : Text) : HasLevel (boundSurroundings depth) .info := by
  have hafter : ∀ v ∈ [(("PYDANTIC_ERRORS_INCLUDE_URL" : Text), ("0" : Text))],
      v.1.lower ≠ Settings.variableName .logLevel :=
    List.forall_mem_singleton.mpr (by decide +kernel)
  have hforce : Settings.InForce (boundSurroundings depth) .logLevel (some "info") :=
    @Settings.InForce.fromVariable _ _ [] _ ("param_schema_log_level", "info") rfl (by decide +kernel) hafter
  exact .set hforce rfl

/-- The depth of three is in force until another is asked for, and a depth of zero is reported even then. -/
theorem limit_in_bound_folder :
    run (boundFolder "0") ["check", "a.json", "--max-depth", "8"] =
        (boundFolder "0").tells ("✗ a.json: 1 validation error for Config\nmax_nesting_depth\n" ++
          "  Input should be greater than or equal to 1 [type=greater_than_equal, input_value='0', input_type=str]") ∧
      ∃ three eight : Nesting.Limit, three.depth = 3 ∧ eight.depth = 8 ∧
        run (boundFolder "3") ["check", "a.json"] =
          (boundFolder "3").within (.ofCheck (.ofText "a.json") none) three ∧
        run (boundFolder "3") ["check", "a.json", "--max-depth", "8"] =
          (boundFolder "3").within (.ofCheck (.ofText "a.json") (some eight)) eight := by
  let three : Nesting.Limit := ⟨3, by decide, by decide⟩
  let eight : Nesting.Limit := ⟨8, by decide, by decide⟩
  have hthree : Request.ofTexts? ["check", "a.json"] = some (.checking (.ofText "a.json") none) := rfl
  have height : Request.ofTexts? ["check", "a.json", "--max-depth", "8"] =
      some (.checking (.ofText "a.json") (some eight)) := rfl
  have hsurroundings (depth : Text) (h : depth = "0" ∨ depth = "3") :
      (boundFolder depth).surroundings = .ok (boundSurroundings depth) := by
    obtain rfl | rfl := h <;> rfl
  have hfaults : (boundFolder "0").settings (some eight) =
      .error (.inr (.settings [⟨.depth, .tooSmall⟩] smallDepthReport)) := rfl
  have hwords : ((Handling.ofCheck (.ofText "a.json") (some eight)).report
      (.settings [⟨.depth, .tooSmall⟩] smallDepthReport)).words =
        "✗ a.json: 1 validation error for Config\nmax_nesting_depth\n" ++
          "  Input should be greater than or equal to 1 [type=greater_than_equal, input_value='0', input_type=str]" := by
    decide +kernel
  refine ⟨?_, three, eight, rfl, rfl, ?_, ?_⟩
  · obtain ⟨hruns, hplain, -⟩ := limit_of_run (boundFolder "0") ["check", "a.json", "--max-depth", "8"]
    obtain ⟨-, -, -, -, -, -, htold, -⟩ := (hruns _ _ _ (hsurroundings "0" (.inl rfl)) height rfl).2.1 _ _ hfaults
    rw [htold ((hplain _ _ (by decide)).2 _ (by decide)) (Terminal.keeps_plain _), hwords]
  · obtain ⟨hruns, -⟩ := limit_of_run (boundFolder "3") ["check", "a.json"]
    exact (hruns _ _ _ (hsurroundings "3" (.inr rfl)) hthree rfl).2.2 _ _ hasDepth_bound (hasLevel_bound "3")
  · obtain ⟨hruns, -⟩ := limit_of_run (boundFolder "3") ["check", "a.json", "--max-depth", "8"]
    exact (hruns _ _ _ (hsurroundings "3" (.inr rfl)) height rfl).2.2 _ _ hasDepth_bound (hasLevel_bound "3")

/-- A variable that sets a depth of zero. -/
def zeroDepth (details : List SettingFault → List Text) : World where
  environment := [("PARAM_SCHEMA_MAX_NESTING_DEPTH", "0")]
  read _ := .error (.unopened .missing)
  write _ := .error .missing
  store _ _ := .ok ()
  terminal := .plain
  stack := .usual
  details := details

theorem exists_unclosed (p : Markup.Progress) (hopened : p.opened = []) : ∃ e, p.tag "/b" = .error e := by
  have hparts : Markup.tagParts "/b" = (.char '/' :: "b", none) := by decide +kernel
  obtain ⟨e, he⟩ : ∃ e, Markup.close "b" [] = .error e := toOption_eq_none_iff.mp (by decide +kernel)
  refine ⟨e, ?_⟩
  unfold Markup.Progress.tag
  rw [hparts, hopened]
  show (Markup.close "b" []).map _ = _
  rw [he]
  rfl

theorem settings_zeroDepth (details : List SettingFault → List Text) :
    (zeroDepth details).settings none =
      .error (.inr (.settings [⟨.depth, .tooSmall⟩] (details [⟨.depth, .tooSmall⟩]))) := rfl

/-- The depth is found to be too small, but whatever is to be reported of it, the closing tag in the path
    breaks the report off. -/
theorem faults_untold_of_bracketed_path :
    Settings.load [] ⟨[("PARAM_SCHEMA_MAX_NESTING_DEPTH", "0")], none⟩ = .error [⟨.depth, .tooSmall⟩] ∧
      ∀ details, ∃ e, run (zeroDepth details) ["check", "m[/b].json"] = .broken (.markup e) none := by
  refine ⟨rfl, fun details => ?_⟩
  have hrequest : Request.ofTexts? ["check", "m[/b].json"] = some (.checking (.ofText "m[/b].json") none) := rfl
  have hpath : (Path.ofText "m[/b].json").toText = "m" ++ (Markup.tagText "/b" ++ ".json") := rfl
  have hinside : Markup.IsInside "/b" := ⟨_, _, rfl, rfl, by decide, by decide⟩
  have hfront := Message.prints_cross.append_text (t := "m") (c := .char 'm') (by decide) rfl (by decide)
  obtain ⟨e, he⟩ := hfront.exists_unread hinside exists_unclosed (zeroDepth details).terminal
    (".json" ++ (": " ++ Markup.escape (Trouble.settings [⟨.depth, .tooSmall⟩] (details [⟨.depth, .tooSmall⟩])).message))
  refine ⟨e, (run_of_trouble hrequest rfl (settings_zeroDepth details)).trans (Message.said_of_error ?_)⟩
  show Console.shownMarked _ (Message.failedCheck _ _).markup = _
  rw [(Message.markup_failedCheck _ _).1, hpath]
  simpa only [List.append_assoc] using he

end FieldForest.Command
