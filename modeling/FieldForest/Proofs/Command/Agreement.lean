/-
  FieldForest.Proofs.Command.Agreement — both commands find the same, and what the library finds.

  Both commands load the settings, read the file and build the forest in the same order and
  report what goes wrong behind words of their own. `handled` is what they have in common, so
  what is found out about a file is proved of it once: either a forest is built (`Builds`), or
  one trouble is reported (`Troubled`), or the run breaks off.

  Proved:
  - `handled_of_builds` / `handled_of_troubled` / `handled_cases`: what becomes of a file.
  - `status_handled_eq_zero_iff` / `reports_handled`: when a run succeeds, and when it reports.
  - `status_check_eq_zero_iff` / `status_show_text_eq_zero_iff` / `output_of_show_json`: the commands
    and formats one by one.
  - `World.wordsFor_eq`: the words in which a trouble is told.
  - `commands_agree`: the two commands together.
-/
import FieldForest.Command.Run
import FieldForest.Proofs.Declaration.Failures
import FieldForest.Proofs.Forest.Printed
import FieldForest.Proofs.Forest.Views
import FieldForest.Proofs.Markup.Fronts

namespace FieldForest

/-! ## Paths and files -/

theorem Path.name_subset_toText (path : Path) : path.name ⊆ path.toText := by
  intro c hc
  unfold name at hc
  cases hlast : path.parts.getLast? with
  | none =>
    rw [hlast] at hc
    cases hc
  | some part =>
    rw [hlast] at hc
    have hmem : c ∈ List.intercalate ("/" : Text) path.parts := Text.mem_intercalate (List.mem_of_getLast? hlast) hc
    unfold toText
    split
    · rename_i hparts
      rw [hparts] at hlast
      cases hlast
    · exact List.mem_append_right _ hmem

/-- A declaration that is read from a file is described by the document in the file. -/
theorem Declaration.exists_document_of_ofFile {stack : Stack} {access : Path → Except FileError (List UInt8)}
    {spelling : Text} {d : Declaration} (h : (ofFile stack access spelling).result = .ok d) :
    ∃ bytes source document, access (.ofText spelling) = .ok bytes ∧ textOfBytes bytes = .ok source ∧
      Json.read stack.jsonLimits source = .ok document ∧ ofJson stack document = .ok d := by
  rw [result_ofFile] at h
  split at h
  · cases h
  · simp only [bind_eq_ok_iff, mapError_eq_ok_iff] at h
    obtain ⟨bytes, hbytes, source, hsource, hd⟩ := h
    obtain ⟨document, hread, hdocument⟩ := read_eq_ok_iff_document.mp hd
    exact ⟨bytes, source, document, hbytes, hsource, hread, hdocument⟩

/-- A file is read as its text is, if its path names it and it holds text. -/
theorem Declaration.result_ofFile_of_text {stack : Stack} {access : Path → Except FileError (List UInt8)}
    {spelling source : Text} {bytes : List UInt8} (hfault : (Path.ofText spelling).fault? = none)
    (hbytes : access (.ofText spelling) = .ok bytes) (hsource : textOfBytes bytes = .ok source) :
    (ofFile stack access spelling).result = (read stack source).mapError .undeclared := by
  rw [result_ofFile, hfault, hbytes]
  dsimp only [bind, Except.bind, mapError_ok]
  rw [hsource, mapError_ok]

theorem Forest.exists_document_of_dump {indent : Option Nat} {forest : List Field} {text : Text}
    (h : dump indent forest = .ok text) : ∃ document, text = Json.write indent document := by
  unfold dump at h
  dsimp only at h
  split_ifs at h
  cases h
  exact ⟨_, rfl⟩

/-! ## What is found out about a file -/

namespace Command

/-- A path in which nothing is taken for marked-up text or for the code of an emoji, and that can be printed. -/
structure PathIsPlain (terminal : Terminal) (path : Path) : Prop where
  noBracket : .char '[' ∉ path.toText
  noEmoji : terminal.emoji (path.toText ++ ":") = path.toText ++ ":"
  noLoneSurrogate : path.toText.hasLoneSurrogate = false

/-- The exit status of a run; one that breaks off has the status of one that fails. -/
def Ending.status : Ending → Nat
  | .help => 0
  | .usage => 2
  | .answered a => a.exit
  | .broken _ _ => 1

/-- A run that says what is wrong. -/
def Ending.Reports (e : Ending) : Prop := ∃ a, e = .answered a ∧ a.exit = 1

namespace World

variable (w : World) (path : Path) (depth : Option Nesting.Limit)

/-- The settings are valid, and the file is read and built into a forest within their depth. -/
def Builds (settings : Settings) (forest : List Field) : Prop :=
  w.settings depth = .ok settings ∧ ∃ d limit, (Declaration.ofFile w.stack w.read path.toText).result = .ok d ∧
    Nesting.Limit.ofInt settings.depth = .ok limit ∧ (d.toValue.buildForest limit).result = .ok forest

/-- What goes wrong on the way. -/
inductive Troubled : Trouble → Prop
  | settings {trouble : Trouble} : w.settings depth = .error (.inr trouble) → Troubled trouble
  | file {settings : Settings} {e : FileReadError} :
      w.settings depth = .ok settings → (Declaration.ofFile w.stack w.read path.toText).result = .error e →
      breakOf? e = none → Troubled (.file e)
  | build {settings : Settings} {d : Declaration} {limit : Nesting.Limit} {e : BuildError} :
      w.settings depth = .ok settings → (Declaration.ofFile w.stack w.read path.toText).result = .ok d →
      Nesting.Limit.ofInt settings.depth = .ok limit → (d.toValue.buildForest limit).result = .error e →
      Troubled (.build e)

/-- No string in the file holds half of a surrogate pair, if it is JSON at all. -/
def HoldsNoLoneSurrogate : Prop :=
  ∀ bytes source document, w.read (.ofText path.toText) = .ok bytes → Declaration.textOfBytes bytes = .ok source →
    Json.read w.stack.jsonLimits source = .ok document → document.hasLoneSurrogate = false

/-- The words for a trouble, as the terminal shows them. -/
def wordsFor (trouble : Trouble) : Text := w.terminal.emojied (Markup.escape trouble.message)

/-- The end of a run that tells `t` in a line behind the notices. -/
def tells (t : Text) : Ending :=
  .answered ⟨1, [], w.notices ++ Console.withoutLoneSurrogates (Console.line t), none⟩

/-- What both commands do with a file: what goes wrong is reported behind `front`, and a forest that
    is built is passed on. -/
def handled (front : Text) (next : List Field → Ending) : Ending :=
  w.underSettings depth front fun settings =>
    match w.forest path settings with
    | .error e => ended w.terminal front e
    | .ok forest => next forest

theorem runCheck_eq : runCheck w path depth =
    w.handled path depth ("[red]✗[/red] " ++ path.toText ++ ": ") fun forest =>
      printed w.terminal none ("[green]✓[/green] " ++ path.toText ++ ": " ++ Text.ofNat forest.length ++
        " top-level fields, " ++ Text.ofNat (Forest.size forest) ++ " total") := rfl

theorem runShow_eq (format : Format) (output : Option Path) : runShow w path format.name output depth =
    w.handled path depth errorFront fun forest => w.showForest path format output forest := by
  cases format <;> rfl

variable {w path depth} {settings : Settings} {front : Text} {next : List Field → Ending}

section

variable {e : FileReadError} {d : Declaration} {limit : Nesting.Limit}

theorem forest_of_break (hfile : (Declaration.ofFile w.stack w.read path.toText).result = .error e) {b : Break}
    (hbreak : breakOf? e = some b) : w.forest path settings = .error (.inl b) := by
  unfold World.forest
  rw [hfile]
  dsimp only
  rw [hbreak]

theorem forest_of_unread (hfile : (Declaration.ofFile w.stack w.read path.toText).result = .error e)
    (hbreak : breakOf? e = none) : w.forest path settings = .error (.inr (.file e)) := by
  unfold World.forest
  rw [hfile]
  dsimp only
  rw [hbreak]

theorem forest_of_read (hfile : (Declaration.ofFile w.stack w.read path.toText).result = .ok d)
    (hlimit : Nesting.Limit.ofInt settings.depth = .ok limit) :
    w.forest path settings = (d.toValue.buildForest limit).result.mapError (.inr ∘ .build) := by
  unfold World.forest
  rw [hfile]
  dsimp only
  rw [hlimit]

theorem forest_of_noLimit (hfile : (Declaration.ofFile w.stack w.read path.toText).result = .ok d)
    {fault : Nesting.OutOfRange} (hlimit : Nesting.Limit.ofInt settings.depth = .error fault) :
    w.forest path settings = .error (.inl .depthOutOfRange) := by
  unfold World.forest
  rw [hfile]
  dsimp only
  rw [hlimit]

end

theorem forest_of_builds {forest : List Field} (h : w.Builds path depth settings forest) :
    w.forest path settings = .ok forest := by
  obtain ⟨-, d, limit, hd, hlimit, hforest⟩ := h
  rw [forest_of_read hd hlimit]
  exact mapError_eq_ok_iff.mpr hforest

theorem handled_of_builds {forest : List Field} (h : w.Builds path depth settings forest) :
    w.handled path depth front next = (next forest).behind w.notices := by
  unfold handled underSettings
  rw [h.1]
  dsimp only
  rw [forest_of_builds h]

theorem handled_of_faulty {e : Break ⊕ Trouble} (hsettings : w.settings depth = .error e) :
    w.handled path depth front next = (ended w.terminal front e).behind w.notices := by
  unfold handled underSettings
  rw [hsettings]

theorem handled_of_unbuilt {e : Break ⊕ Trouble} (hsettings : w.settings depth = .ok settings)
    (hforest : w.forest path settings = .error e) :
    w.handled path depth front next = (ended w.terminal front e).behind w.notices := by
  unfold handled underSettings
  rw [hsettings]
  dsimp only
  rw [hforest]

/-- A trouble is reported. -/
theorem handled_eq_reported {trouble : Trouble} (h : w.Troubled path depth trouble) :
    w.handled path depth front next = (reported w.terminal none front trouble).behind w.notices := by
  cases h with
  | settings hsettings => exact handled_of_faulty hsettings
  | file hsettings hfile hbreak => exact handled_of_unbuilt hsettings (forest_of_unread hfile hbreak)
  | build hsettings hfile hlimit hbuild =>
    have hforest := (forest_of_read hfile hlimit).trans (mapError_eq_error_iff.mpr ⟨_, hbuild, rfl⟩)
    exact handled_of_unbuilt hsettings hforest

/-- A trouble is told behind the words that stand for `left`. -/
theorem handled_of_troubled {left : Text} (hfront : Console.IsFront w.terminal front left) {trouble : Trouble}
    (h : w.Troubled path depth trouble) :
    w.handled path depth front next = w.tells (left ++ w.wordsFor trouble) := by
  rw [handled_eq_reported h, reported, refused, hfront.markedLine_escape trouble.message]
  rfl

variable (w path depth) in
/-- Nothing else happens, unless a run breaks off. -/
theorem handled_cases (front : Text) (next : List Field → Ending) :
    (∃ settings forest, w.Builds path depth settings forest) ∨
      (∃ trouble, w.Troubled path depth trouble) ∨ ∃ b, w.handled path depth front next = .broken b none := by
  cases hsettings : w.settings depth with
  | error e =>
    cases e with
    | inl b => exact .inr (.inr ⟨b, handled_of_faulty hsettings⟩)
    | inr trouble => exact .inr (.inl ⟨trouble, .settings hsettings⟩)
  | ok settings =>
    cases hfile : (Declaration.ofFile w.stack w.read path.toText).result with
    | error e =>
      cases hbreak : breakOf? e with
      | none => exact .inr (.inl ⟨_, .file hsettings hfile hbreak⟩)
      | some b => exact .inr (.inr ⟨b, handled_of_unbuilt hsettings (forest_of_break hfile hbreak)⟩)
    | ok d =>
      cases hlimit : Nesting.Limit.ofInt settings.depth with
      | error e => exact .inr (.inr ⟨_, handled_of_unbuilt hsettings (forest_of_noLimit hfile hlimit)⟩)
      | ok limit =>
        cases hforest : (d.toValue.buildForest limit).result with
        | error e => exact .inr (.inl ⟨_, .build hsettings hfile hlimit hforest⟩)
        | ok forest => exact .inl ⟨settings, forest, hsettings, d, limit, hfile, hlimit, hforest⟩

end World

/-! ## The words of the commands -/

theorem not_mem_ofNat {c : Char} (hdigit : c.isDigit = false) (n : Nat) : .char c ∉ Text.ofNat n := by
  intro h
  obtain ⟨d, hd, he⟩ := List.mem_map.mp h
  cases he
  have hd := isDigit_toDigits n _ hd
  rw [hdigit] at hd
  cases hd

section

variable (terminal : Terminal)

theorem isFront_error : Console.IsFront terminal errorFront "Error: " :=
  (Console.ownStyle_of_mem (.head _)).isFront terminal (t := "Error") (c := .char ':') (by decide) (by decide)
    (by decide) (terminal.keeps_of_count_le (by decide +kernel))

theorem isFront_cross : Console.IsFront terminal "[red]✗[/red] " "✗ " :=
  (Console.ownStyle_of_mem (.head _)).isFront terminal (t := []) (c := .char '✗') List.not_mem_nil (by decide)
    (by decide) (terminal.keeps_of_count_le (by decide +kernel))

theorem isFront_tick : Console.IsFront terminal "[green]✓[/green] " "✓ " :=
  (Console.ownStyle_of_mem (.tail _ (.head _))).isFront terminal (t := []) (c := .char '✓') List.not_mem_nil
    (by decide) (by decide) (terminal.keeps_of_count_le (by decide +kernel))

end

/-- What `check` says of a forest behind the path. -/
def countText (forest : List Field) : Text :=
  Text.ofNat forest.length ++ " top-level fields, " ++ Text.ofNat (Forest.size forest) ++ " total"

theorem not_mem_countText {c : Char} (hdigit : c.isDigit = false)
    (hword : .char c ∉ (" top-level fields, " ++ " total" : Text)) (forest : List Field) :
    .char c ∉ countText forest := by
  rw [List.mem_append, not_or] at hword
  simp only [countText, List.mem_append, not_or]
  exact ⟨⟨⟨not_mem_ofNat hdigit _, hword.1⟩, not_mem_ofNat hdigit _⟩, hword.2⟩

section

variable {terminal : Terminal} {path : Path}

theorem isFront_check (hbracket : .char '[' ∉ path.toText)
    (hemoji : terminal.emoji (path.toText ++ ":") = path.toText ++ ":") :
    Console.IsFront terminal ("[red]✗[/red] " ++ path.toText ++ ": ") ("✗ " ++ path.toText ++ ": ") := by
  have hword : .char '[' ∉ path.toText ++ (":" : Text) := by
    rw [List.mem_append, not_or]
    exact ⟨hbracket, by decide⟩
  have h := (isFront_cross terminal).append_text hword hemoji
  have hcolon : path.toText ++ (":" : Text) ++ " " = path.toText ++ ": " := List.append_assoc _ _ _
  rw [hcolon] at h
  rwa [List.append_assoc, List.append_assoc]

variable (hpath : PathIsPlain terminal path)

include hpath

theorem markedLine_count (forest : List Field) :
    Console.markedLine terminal ("[green]✓[/green] " ++ path.toText ++ ": " ++ Text.ofNat forest.length ++
      " top-level fields, " ++ Text.ofNat (Forest.size forest) ++ " total") =
        .ok (Console.line ("✓ " ++ path.toText ++ ": " ++ countText forest)) := by
  have hbracket : .char '[' ∉ path.toText ++ ((": " : Text) ++ countText forest) := by
    rw [List.mem_append, not_or, List.mem_append, not_or]
    exact ⟨hpath.noBracket, by decide, not_mem_countText rfl (by decide) forest⟩
  have hlast : (path.toText ++ ((": " : Text) ++ countText forest)).getLast? = some (.char 'l') := by
    simp only [countText, List.getLast?_append]
    rfl
  have hcount : terminal.emoji (countText forest) = countText forest := by
    refine terminal.emoji_of_count_le _ ?_
    rw [List.count_eq_zero.mpr (not_mem_countText rfl (by decide) forest)]
    exact Nat.zero_le 1
  have hemoji : terminal.emoji (path.toText ++ ((": " : Text) ++ countText forest)) =
      path.toText ++ ((": " : Text) ++ countText forest) := by
    have hspace := terminal.emoji_blank (path.toText ++ ":") (countText forest) ' ' (.inl rfl)
    rw [hpath.noEmoji, hcount, List.append_assoc] at hspace
    exact hspace
  have h := (isFront_tick terminal).markedLine_text hbracket hlast (by decide) hemoji
  simpa only [countText, List.append_assoc] using h

theorem hasLoneSurrogate_count (forest : List Field) :
    (Console.line ("✓ " ++ path.toText ++ ": " ++ countText forest)).hasLoneSurrogate = false := by
  unfold Console.line
  rw [Json.hasLoneSurrogate_append, Console.hasLoneSurrogate_shown]
  · rfl
  · simp only [countText, Json.hasLoneSurrogate_append, Text.hasLoneSurrogate_ofString, Text.hasLoneSurrogate_ofNat,
      hpath.noLoneSurrogate, Bool.or_false]

theorem hasLoneSurrogate_titleOf : (titleOf path).hasLoneSurrogate = false := by
  have hname := Text.hasLoneSurrogate_subset path.name_subset_toText hpath.noLoneSurrogate
  rw [titleOf, Json.hasLoneSurrogate_append, Text.hasLoneSurrogate_ofString, hname]
  rfl

end

theorem Ending.status_behind (notices : Text) (e : Ending) : (e.behind notices).status = e.status := by
  cases e <;> rfl

section

variable {w : World} {path : Path} {depth : Option Nesting.Limit} {settings : Settings} {forest : List Field}

/-- A forest that is built is counted. -/
theorem check_of_builds (hpath : PathIsPlain w.terminal path) (h : w.Builds path depth settings forest) :
    runCheck w path depth =
      .answered ⟨0, Console.line ("✓ " ++ path.toText ++ ": " ++ countText forest), w.notices, none⟩ := by
  rw [World.runCheck_eq, World.handled_of_builds h, printed, markedLine_count hpath]
  dsimp only
  rw [succeeded, hasLoneSurrogate_count hpath forest]
  exact congrArg (fun errors => Ending.answered ⟨0, _, errors, none⟩) (List.append_nil _)

/-- A run succeeds exactly if a forest is built and what is done with it succeeds. -/
theorem status_handled_eq_zero_iff {front left : Text} (hfront : Console.IsFront w.terminal front left)
    {next : List Field → Ending} :
    (w.handled path depth front next).status = 0 ↔
      ∃ settings forest, w.Builds path depth settings forest ∧ (next forest).status = 0 := by
  constructor
  · intro h
    rcases World.handled_cases w path depth front next with
      ⟨settings, forest, hbuilds⟩ | ⟨trouble, htrouble⟩ | ⟨b, hbroken⟩
    · rw [World.handled_of_builds hbuilds, Ending.status_behind] at h
      exact ⟨settings, forest, hbuilds, h⟩
    · rw [World.handled_of_troubled hfront htrouble] at h
      cases h
    · rw [hbroken] at h
      cases h
  · rintro ⟨settings, forest, hbuilds, h⟩
    rw [World.handled_of_builds hbuilds, Ending.status_behind]
    exact h

theorem status_check_eq_zero_iff (hpath : PathIsPlain w.terminal path) :
    (runCheck w path depth).status = 0 ↔ ∃ settings forest, w.Builds path depth settings forest := by
  constructor
  · intro h
    rw [World.runCheck_eq, status_handled_eq_zero_iff (isFront_check hpath.noBracket hpath.noEmoji)] at h
    obtain ⟨settings, forest, hbuilds, -⟩ := h
    exact ⟨settings, forest, hbuilds⟩
  · rintro ⟨settings, forest, h⟩
    rw [check_of_builds hpath h]
    rfl

/-- The listing of a forest can be printed if the file holds no half of a surrogate pair. -/
theorem hasLoneSurrogate_listing (hpath : PathIsPlain w.terminal path) (hfile : w.HoldsNoLoneSurrogate path)
    (h : w.Builds path depth settings forest) :
    (Console.line (Forest.listing (titleOf path) forest)).hasLoneSurrogate = false := by
  obtain ⟨-, d, limit, hd, -, hforest⟩ := h
  obtain ⟨bytes, source, document, hbytes, hsource, hread, hdocument⟩ := Declaration.exists_document_of_ofFile hd
  have hmerged := Json.hasLoneSurrogate_merged (hfile bytes source document hbytes hsource hread)
  have hdocumented := Declaration.documented_of_builds Json.inherited_hasLoneSurrogate hmerged hdocument hforest
  have hlisting := Forest.hasLoneSurrogate_listing (hasLoneSurrogate_titleOf hpath) hdocumented
  rw [Console.line, Json.hasLoneSurrogate_append, Console.hasLoneSurrogate_shown hlisting]
  rfl

theorem status_show_text_eq_zero_iff (hpath : PathIsPlain w.terminal path) (hfile : w.HoldsNoLoneSurrogate path) :
    (runShow w path "text" none depth).status = 0 ↔ (runCheck w path depth).status = 0 := by
  have hshow : runShow w path "text" none depth = _ := World.runShow_eq w path depth .text none
  rw [status_check_eq_zero_iff hpath, hshow, status_handled_eq_zero_iff (isFront_error _)]
  constructor
  · rintro ⟨settings, forest, hbuilds, -⟩
    exact ⟨settings, forest, hbuilds⟩
  · rintro ⟨settings, forest, hbuilds⟩
    have hshown : w.showForest path .text none forest =
        succeeded none (Console.line (Forest.listing (titleOf path) forest)) := rfl
    refine ⟨settings, forest, hbuilds, ?_⟩
    rw [hshown, succeeded, hasLoneSurrogate_listing hpath hfile hbuilds]
    rfl

theorem not_reports_broken (b : Break) (written : Option (Path × List UInt8)) : ¬ (Ending.broken b written).Reports := by
  rintro ⟨a, h, -⟩
  cases h

theorem not_reports_succeeded (written : Option (Path × List UInt8)) (output : Text) :
    ¬ (succeeded written output).Reports := by
  unfold succeeded
  split
  · exact not_reports_broken _ _
  · rintro ⟨a, h, ha⟩
    cases h
    cases ha

theorem not_reports_printed (terminal : Terminal) (written : Option (Path × List UInt8)) (line : Text) :
    ¬ (printed terminal written line).Reports := by
  unfold printed
  split
  · exact not_reports_succeeded _ _
  · exact not_reports_broken _ _

/-- Showing a forest that is built fails with a message only if it cannot be written, or not all of it stored. -/
theorem reports_showForest {format : Format} {output : Option Path}
    (h : (w.showForest path format output forest).Reports) :
    ∃ target, output = some target ∧
      ((∃ e, w.write target = .error e) ∨ ∃ text s, w.store target (Utf8.encode text) = .error s) := by
  unfold World.showForest at h
  split at h
  · split at h
    · exact absurd h (not_reports_succeeded _ _)
    · exact absurd h (not_reports_broken _ _)
  · split at h
    · exact absurd h (not_reports_broken _ _)
    · rename_i text _
      split at h
      · exact absurd h (not_reports_succeeded _ _)
      · rename_i target _
        refine ⟨target, rfl, ?_⟩
        split at h
        · rename_i e he
          exact .inl ⟨e, he⟩
        · unfold World.writeOpened at h
          split at h
          · exact absurd h (not_reports_broken _ _)
          · dsimp only at h
            split at h
            · rename_i s hs
              exact .inr ⟨text, s, hs⟩
            · exact absurd h (not_reports_printed _ _ _)

theorem reports_behind {notices : Text} {e : Ending} (h : (e.behind notices).Reports) : e.Reports := by
  obtain ⟨a, ha, hexit⟩ := h
  cases e with
  | answered b =>
    cases ha
    exact ⟨b, rfl, hexit⟩
  | _ => cases ha

/-- What is reported is a trouble, or else what comes after the forest is built. -/
theorem reports_handled {front : Text} {next : List Field → Ending} (h : (w.handled path depth front next).Reports) :
    (∃ trouble, w.Troubled path depth trouble) ∨
      ∃ settings forest, w.Builds path depth settings forest ∧ (next forest).Reports := by
  rcases World.handled_cases w path depth front next with
    ⟨settings, forest, hbuilds⟩ | htrouble | ⟨b, hbroken⟩
  · rw [World.handled_of_builds hbuilds] at h
    exact .inr ⟨settings, forest, hbuilds, reports_behind h⟩
  · exact .inl htrouble
  · rw [hbroken] at h
    exact absurd h (not_reports_broken _ _)

/-- What is printed as JSON is the forest as it is saved. -/
theorem output_of_show_json {a : Answer} (h : runShow w path "json" none depth = .answered a) (ha : a.exit = 0) :
    ∃ settings forest text, w.Builds path depth settings forest ∧ Forest.dump (some 2) forest = .ok text ∧
      a.output = text ++ "\n" := by
  have hshow : runShow w path "json" none depth = _ := World.runShow_eq w path depth .json none
  have hstatus : (runShow w path "json" none depth).status = 0 := by
    rw [h]
    exact ha
  rw [hshow, status_handled_eq_zero_iff (isFront_error _)] at hstatus
  obtain ⟨settings, forest, hbuilds, -⟩ := hstatus
  rw [hshow, World.handled_of_builds hbuilds, World.showForest, if_neg (by decide), shownText] at h
  cases hdump : Forest.dump (some 2) forest with
  | error e =>
    rw [hdump] at h
    cases h
  | ok text =>
    have hline : Console.line text = text ++ "\n" := by
      obtain ⟨document, rfl⟩ := Forest.exists_document_of_dump hdump
      rw [Console.line, Json.shown_write]
    rw [hdump] at h
    dsimp only at h
    rw [succeeded, hline] at h
    split at h
    · cases h
    · cases h
      exact ⟨settings, forest, text, hbuilds, hdump, rfl⟩

/-- The words for a trouble are its message, unless there is a backslash or the code of an emoji in it. -/
theorem World.wordsFor_eq (w : World) {trouble : Trouble} (hkeeps : w.terminal.Keeps (Markup.escape trouble.message)) :
    Markup.plain (Markup.escape trouble.message) = .ok (w.wordsFor trouble) ∧
      (.char '\\' ∉ trouble.message → w.wordsFor trouble = trouble.message) := by
  have htells : Console.Tells (Markup.escape trouble.message) (Markup.leftOf trouble.message) :=
    Console.Prints.nil.tells_escape trouble.message
  have hwords : w.wordsFor trouble = Markup.leftOf trouble.message := htells.emojied_eq hkeeps
  rw [hwords]
  exact ⟨Markup.plain_escape _, Markup.leftOf_of_noBackslash⟩

end

/-- Both commands find the same in a file: `check` succeeds exactly if the settings are valid and the
    file builds, and counts the forest; `show` lists the forest of the same files, reports the same
    troubles in the same words, whatever settings are in force, and prints as JSON what is saved of the
    forest. The words for a trouble are its message, unless there is a backslash or the code of an emoji in it. -/
theorem commands_agree (w : World) {path : Path} (hpath : PathIsPlain w.terminal path) (depth : Option Nesting.Limit) :
    ((runCheck w path depth).status = 0 ↔ ∃ settings forest, w.Builds path depth settings forest) ∧
    (∀ settings forest, w.Builds path depth settings forest →
      runCheck w path depth = .answered ⟨0, Console.line ("✓ " ++ path.toText ++ ": " ++
        Text.ofNat forest.length ++ " top-level fields, " ++ Text.ofNat (Forest.size forest) ++ " total"),
          w.notices, none⟩ ∧
      Forest.size forest = (Forest.rows forest).length) ∧
    (w.HoldsNoLoneSurrogate path →
      ((runShow w path "text" none depth).status = 0 ↔ (runCheck w path depth).status = 0)) ∧
    (∀ trouble, w.Troubled path depth trouble →
      runCheck w path depth = w.tells ("✗ " ++ path.toText ++ ": " ++ w.wordsFor trouble) ∧
        (∀ (format : Format) (output : Option Path),
          runShow w path format.name output depth = w.tells ("Error: " ++ w.wordsFor trouble)) ∧
        (w.terminal.Keeps (Markup.escape trouble.message) →
          Markup.plain (Markup.escape trouble.message) = .ok (w.wordsFor trouble) ∧
            (.char '\\' ∉ trouble.message → w.wordsFor trouble = trouble.message))) ∧
    ((runCheck w path depth).Reports → ∃ trouble, w.Troubled path depth trouble) ∧
    (∀ (format : Format) (output : Option Path), (runShow w path format.name output depth).Reports →
      (∃ trouble, w.Troubled path depth trouble) ∨
        ∃ target, output = some target ∧
          ((∃ e, w.write target = .error e) ∨ ∃ text s, w.store target (Utf8.encode text) = .error s)) ∧
    ∀ a, runShow w path "json" none depth = .answered a → a.exit = 0 →
      ∃ settings forest text, w.Builds path depth settings forest ∧ Forest.dump (some 2) forest = .ok text ∧
        a.output = text ++ "\n" := by
  refine ⟨status_check_eq_zero_iff hpath, ?_, status_show_text_eq_zero_iff hpath, ?_, ?_, ?_, fun a => output_of_show_json⟩
  · intro settings forest h
    refine ⟨?_, (Forest.length_rows forest).symm⟩
    simpa only [countText, List.append_assoc] using check_of_builds hpath h
  · intro trouble h
    refine ⟨?_, fun format output => ?_, fun hkeeps => w.wordsFor_eq hkeeps⟩
    · rw [World.runCheck_eq, World.handled_of_troubled (isFront_check hpath.noBracket hpath.noEmoji) h]
    · rw [World.runShow_eq, World.handled_of_troubled (isFront_error _) h]
  · intro h
    rw [World.runCheck_eq] at h
    rcases reports_handled h with htrouble | ⟨settings, forest, -, hreports⟩
    · exact htrouble
    · exact absurd hreports (not_reports_printed _ _ _)
  · intro format output h
    rw [World.runShow_eq] at h
    rcases reports_handled h with htrouble | ⟨settings, forest, -, hreports⟩
    · exact .inl htrouble
    · exact .inr (reports_showForest hreports)

/-- The document of a declaration of one field. -/
def oneField : Json := .object [("requires", .array [.text "a", .text "int"])]

/-- A folder with one file of the name, to which the document is written. -/
def fileCalled (name : Text) : World where
  environment := []
  read path :=
    if path = .ofText name then .ok ((oneField.write none).map fun c => UInt8.ofNat c.toNat)
    else .error (.unopened .missing)
  write _ := .error .missing
  store _ _ := .ok ()
  terminal := .plain
  stack := .usual
  details _ := []

/-- The file has a plain name. -/
def oneFile : World := fileCalled "a.json"

theorem textOfBytes_oneField :
    Declaration.textOfBytes ((oneField.write none).map fun c => UInt8.ofNat c.toNat) = .ok (oneField.write none) := rfl

theorem read_oneField : Json.read Declaration.Stack.usual.jsonLimits (oneField.write none) = .ok oneField := by
  have hreadable : oneField.Readable Declaration.Stack.usual.jsonLimits :=
    .object (List.forall_mem_singleton.mpr (.texts "a" "int"))
  exact Json.read_write (Json.Limits.takes_of_places rfl _) hreadable (by decide) none

theorem builds_fileCalled {name : Text} (hfault : (Path.ofText (Path.ofText name).toText).fault? = none)
    (hspelled : Path.ofText (Path.ofText name).toText = .ofText name)
    (hsettings : (fileCalled name).settings none = .ok ⟨64, .warning⟩) :
    (fileCalled name).Builds (.ofText name) none ⟨64, .warning⟩ [.mk "a" "int" [] true [] []] := by
  have hdeclares : Declaration.read .usual (oneField.write none) =
      .ok (.single (.statement "requires" [.text "a", .text "int"])) := by
    refine Declaration.read_eq_ok_iff_document.mpr ⟨_, read_oneField, Declaration.ofJson_of_describes (by decide) ?_⟩
    exact .single (.statement (by decide) (by decide) (.plain Call.not_holdsBody_bare))
  have hbytes : (fileCalled name).read (Path.ofText (Path.ofText name).toText) =
      .ok ((oneField.write none).map fun c => UInt8.ofNat c.toNat) := if_pos hspelled
  have hfile : (Declaration.ofFile .usual (fileCalled name).read (Path.ofText name).toText).result =
      .ok (.single (.statement "requires" [.text "a", .text "int"])) := by
    rw [Declaration.result_ofFile_of_text hfault hbytes textOfBytes_oneField, hdeclares, mapError_ok]
  exact ⟨hsettings, _, .usual, hfile, rfl, rfl⟩

theorem builds_oneFile :
    oneFile.Builds (.ofText "a.json") none ⟨64, .warning⟩ [.mk "a" "int" [] true [] []] :=
  @builds_fileCalled "a.json" rfl rfl rfl

/-- Of the file both commands find the field, and of any other that it is not there. -/
theorem commands_agree_on_one_file :
    runCheck oneFile (.ofText "a.json") none = .answered ⟨0, "✓ a.json: 1 top-level fields, 1 total\n", [], none⟩ ∧
    (runShow oneFile (.ofText "a.json") "text" none none).status = 0 ∧
    runCheck oneFile (.ofText "b.json") none =
      oneFile.tells ("✗ b.json: " ++ FileError.message (.ofText "b.json") (.unopened .missing)) ∧
    ∀ (format : Format) (output : Option Path), runShow oneFile (.ofText "b.json") format.name output none =
      oneFile.tells ("Error: " ++ FileError.message (.ofText "b.json") (.unopened .missing)) := by
  have hspelled : (Path.ofText "a.json").toText = "a.json" ∧ (Path.ofText "b.json").toText = "b.json" := ⟨rfl, rfl⟩
  have hplain {path : Path} (h : path.toText = "a.json" ∨ path.toText = "b.json") : PathIsPlain .plain path := by
    constructor <;> rcases h with h | h <;> rw [h]
    all_goals decide
  have hlone : oneFile.HoldsNoLoneSurrogate (.ofText "a.json") := by
    intro bytes source document hbytes hsource hread
    cases hbytes
    cases textOfBytes_oneField.symm.trans hsource
    cases read_oneField.symm.trans hread
    rfl
  have hmissing : oneFile.Troubled (.ofText "b.json") none (.file (.unavailable (.ofText "b.json") (.unopened .missing))) :=
    @World.Troubled.file oneFile _ _ ⟨64, .warning⟩ _ rfl rfl rfl
  have hslash : .char '\\' ∉ (Trouble.file (.unavailable (.ofText "b.json") (.unopened .missing))).message := by decide
  have hcounted : Console.line ("✓ " ++ "a.json" ++ ": " ++
      Text.ofNat [Field.mk "a" "int" [] true [] []].length ++ " top-level fields, " ++
      Text.ofNat (Forest.size [Field.mk "a" "int" [] true [] []]) ++ " total") =
      "✓ a.json: 1 top-level fields, 1 total\n" := by rfl
  have hcross : ("✗ " ++ "b.json" ++ ": " : Text) = "✗ b.json: " := by rfl
  obtain ⟨hiff, hcount, hshow, -⟩ := commands_agree oneFile (hplain (.inl hspelled.1)) none
  obtain ⟨-, -, -, htroubled, -⟩ := commands_agree oneFile (hplain (.inr hspelled.2)) none
  obtain ⟨hcheck, hfailed, hwords⟩ := htroubled _ hmissing
  have hsame := (hwords (Terminal.keeps_plain _)).2 hslash
  have hanswer := (hcount _ _ builds_oneFile).1
  rw [hspelled.1, hcounted] at hanswer
  rw [hspelled.2, hcross, hsame] at hcheck
  simp only [hsame] at hfailed
  exact ⟨hanswer, (hshow hlone).mpr (hiff.mpr ⟨_, _, builds_oneFile⟩), hcheck, hfailed⟩

end Command

end FieldForest
