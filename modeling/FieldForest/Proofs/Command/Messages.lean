/-
  FieldForest.Proofs.Command.Messages — what the messages of a run tell, character for character.

  The words of a message are complete as marked-up text, and what goes wrong is escaped, but paths
  and the name of a format are put between them as they are. So a message tells what it is meant to
  tell exactly if nothing in those is taken for markup. A tag that opens in a path can be closed by
  what stands behind the path, so for the message of a failed check that matters too.

  Proved:
  - `Prints.tells_unmarked` / `Prints.unmarked_of_plain`: words, a text as it is, and more words behind it.
  - `Message.tells` / `Message.isPlain_of_plain`: message by message, when it tells its words.
  - `World.Says.run_eq`: the runs that say a message, and how they end with it.
  - `says_of_answered`: a run that is answered says a message, or shows the forest without markup.
  - `told_literally_iff`: all messages together.
-/
import FieldForest.Proofs.Command.Agreement
import FieldForest.Proofs.Forest.Labels

namespace FieldForest

open Markup (Unmarked IsKeptAlone)
open Console (Prints Tells)

/-! ## A text between words -/

namespace Console.Prints

variable {front left : Text} (h : Prints front left)

include h

theorem tells_unmarked {s after : Text}
    (hafter : ∀ n, Markup.tokensBehind n after = Markup.backslashes n ++ Markup.tokens after)
    (hliteral : ∀ t ∈ Markup.tokens after, t.IsLiteral) (hs : Unmarked s after) :
    Tells (front ++ (s ++ after)) (left ++ (s ++ (Markup.tokens after).flatMap Markup.Token.left)) := by
  obtain ⟨p, hreads, hp, rfl⟩ := h.exists_reads
  exact ⟨_, hreads.read_of_unmarked hafter hliteral hs, hp.put _, p.read_put _⟩

theorem unmarked_of_plain {s after words : Text}
    (hafter : ∀ n, Markup.tokensBehind n after = Markup.backslashes n ++ Markup.tokens after)
    (hbrackets : Markup.brackets after ≤ Markup.brackets words)
    (hplain : Markup.plain (front ++ (s ++ after)) = .ok (left ++ (s ++ words))) :
    Unmarked s after ∧ (Markup.tokens after).flatMap Markup.Token.left = words := by
  obtain ⟨p, hreads, -, rfl⟩ := h.exists_reads
  exact hreads.unmarked_of_plain hafter hbrackets hplain

/-- Between words a text is told as it is if it is unmarked. -/
theorem tells_between {s after : Text} (hopen : .char '[' ∉ after) (hclose : .char ']' ∉ after) (hs : Unmarked s []) :
    Tells (front ++ (s ++ after)) (left ++ (s ++ after)) := by
  have htokens := Markup.tokens_of_noBracket hopen
  have hliteral : ∀ t ∈ Markup.tokens after, t.IsLiteral := by
    rw [htokens]
    exact List.forall_mem_map.mpr fun _ _ => trivial
  have hs := (Markup.unmarked_append_iff (Markup.untilClosing_of_not_mem hclose)).mpr hs
  have htells := h.tells_unmarked (Markup.tokensBehind_eq_of_noBracket hopen) hliteral hs
  rwa [htokens, Markup.left_plain] at htells

theorem unmarked_of_between {s after : Text} (hopen : .char '[' ∉ after) (hclose : .char ']' ∉ after)
    (hplain : Markup.plain (front ++ (s ++ after)) = .ok (left ++ (s ++ after))) : Unmarked s [] := by
  have hs := h.unmarked_of_plain (Markup.tokensBehind_eq_of_noBracket hopen) (Nat.le_refl _) hplain
  exact (Markup.unmarked_append_iff (Markup.untilClosing_of_not_mem hclose)).mp hs.1

end Console.Prints

/-! ## Messages -/

namespace Command

/-- What a run says in marked-up text. -/
inductive Message where
  | unknownFormat (format : Text)
  | title (path : Path)
  | written (target : Path)
  | counted (path : Path) (forest : List Field)
  | failedShow (trouble : Trouble)
  | failedCheck (path : Path) (trouble : Trouble)

def formatNames : Text := List.intercalate ", " (Format.all.map Format.name)

namespace Message

/-- A message as it is written. -/
def markup : Message → Text
  | .unknownFormat format => errorFront ++ "Unknown format '" ++ format ++ "'. Expected one of: " ++ formatNames
  | .title path => Outline.styled "bold" (titleOf path)
  | .written target => "[green]✓[/green] Schema written to " ++ target.toText
  | .counted path forest =>
    "[green]✓[/green] " ++ path.toText ++ ": " ++ Text.ofNat forest.length ++ " top-level fields, " ++
      Text.ofNat (Forest.size forest) ++ " total"
  | .failedShow trouble => errorFront ++ Markup.escape trouble.message
  | .failedCheck path trouble => "[red]✗[/red] " ++ path.toText ++ ": " ++ Markup.escape trouble.message

/-- What a message is to tell. -/
def words : Message → Text
  | .unknownFormat format => "Error: Unknown format '" ++ format ++ "'. Expected one of: " ++ formatNames
  | .title path => titleOf path
  | .written target => "✓ Schema written to " ++ target.toText
  | .counted path forest => "✓ " ++ path.toText ++ ": " ++ countText forest
  | .failedShow trouble => "Error: " ++ trouble.message
  | .failedCheck path trouble => "✗ " ++ path.toText ++ ": " ++ trouble.message

/-- Nothing in a message is taken for markup that is not meant to be. -/
def IsPlain : Message → Prop
  | .unknownFormat format => Unmarked format []
  | .title path => Unmarked path.name [] ∧ path.name.getLast? ≠ some (.char '\\')
  | .written target => Unmarked target.toText []
  | .counted path _ => Unmarked path.toText []
  | .failedShow trouble => IsKeptAlone trouble.message
  | .failedCheck path trouble =>
    Unmarked path.toText (": " ++ Markup.escape trouble.message) ∧ IsKeptAlone trouble.message

/-- `Between m s`: a message puts the text `s` between words without brackets. -/
def Between (m : Message) (s : Text) : Prop :=
  ∃ front left after, Prints front left ∧ .char '[' ∉ after ∧ .char ']' ∉ after ∧
    m.markup = front ++ (s ++ after) ∧ m.words = left ++ (s ++ after)

theorem prints_error : Prints errorFront "Error: " := (isFront_error .plain).prints

theorem prints_cross : Prints "[red]✗[/red] " "✗ " := (isFront_cross .plain).prints

theorem prints_tick : Prints "[green]✓[/green] " "✓ " := (isFront_tick .plain).prints

theorem between_unknownFormat (format : Text) : Between (.unknownFormat format) format := by
  have hfront := prints_error.append_text (t := "Unknown format '") (c := .char '\'') (by decide) rfl (by decide)
  refine ⟨_, _, "'. Expected one of: " ++ formatNames, hfront, by decide, by decide, ?_, ?_⟩
  · simp only [markup, List.append_assoc]
  · have hwords : ("Error: Unknown format '" : Text) = "Error: " ++ "Unknown format '" := by decide +kernel
    rw [words, hwords]
    simp only [List.append_assoc]

theorem between_written (target : Path) : Between (.written target) target.toText := by
  have hfront := prints_tick.append_text (t := "Schema written to ") (c := .char ' ') (by decide) rfl (by decide)
  have hmarkup : ("[green]✓[/green] Schema written to " : Text) = "[green]✓[/green] " ++ "Schema written to " := by
    decide +kernel
  have hwords : ("✓ Schema written to " : Text) = "✓ " ++ "Schema written to " := by decide +kernel
  refine ⟨_, _, [], hfront, List.not_mem_nil, List.not_mem_nil, ?_, ?_⟩
  · rw [List.append_nil, markup, hmarkup]
  · rw [List.append_nil, words, hwords]

theorem between_counted (path : Path) (forest : List Field) : Between (.counted path forest) path.toText := by
  refine ⟨_, _, ": " ++ countText forest, prints_tick, ?_, ?_, ?_, ?_⟩
  · rw [List.mem_append, not_or]
    exact ⟨by decide, not_mem_countText rfl (by decide) forest⟩
  · rw [List.mem_append, not_or]
    exact ⟨by decide, not_mem_countText rfl (by decide) forest⟩
  · simp only [markup, countText, List.append_assoc]
  · simp only [words, List.append_assoc]

theorem Between.tells {m : Message} {s : Text} (h : Between m s) (hs : Unmarked s []) : Tells m.markup m.words := by
  obtain ⟨front, left, after, hfront, hopen, hclose, hmarkup, hwords⟩ := h
  rw [hmarkup, hwords]
  exact hfront.tells_between hopen hclose hs

theorem Between.unmarked {m : Message} {s : Text} (h : Between m s) (hplain : Markup.plain m.markup = .ok m.words) :
    Unmarked s [] := by
  obtain ⟨front, left, after, hfront, hopen, hclose, hmarkup, hwords⟩ := h
  rw [hmarkup, hwords] at hplain
  exact hfront.unmarked_of_between hopen hclose hplain

/-- What stands in front of the name of a file in a title is read on its own. -/
theorem exists_reads_title :
    ∃ p, Markup.Reads (Markup.tagText "bold" ++ "Schema: ") .start p ∧ Console.Readable p ∧ p.read.reverse = "Schema: " ∧
      p.opened = [⟨"bold", none, 0⟩] := by
  have hbold : Console.OwnStyle "bold" := Console.ownStyle_of_mem (by decide)
  have htag := Markup.Reads.tag hbold.opens (hbold.tag_eq .start)
  have hword := htag.append (.plain (t := "Schema:") (c := .char ' ') (by decide) (by decide) (by decide))
  exact ⟨_, hword, ⟨List.forall_mem_singleton.mpr hbold.readable, List.forall_mem_nil _⟩, rfl, rfl⟩

theorem markup_title (path : Path) :
    (Message.title path).markup =
      Markup.tagText "bold" ++ "Schema: " ++ (path.name ++ Markup.tagText ("/" ++ ("bold" : Text))) := by
  rw [markup, Console.styled_eq, titleOf]
  simp only [List.append_assoc]

/-- What stands behind the path in the message of a failed check. -/
theorem tokens_reported (message : Text) :
    (∀ n, Markup.tokensBehind n (": " ++ Markup.escape message) =
      Markup.backslashes n ++ Markup.tokens (": " ++ Markup.escape message)) ∧
    Markup.tokens (": " ++ Markup.escape message) =
      (": " : Text).map Markup.Token.plain ++ Markup.tokens (Markup.escape message) := by
  have hcolon (n : Nat) (rest : Text) : Markup.tokensBehind n ((": " : Text) ++ rest) =
      Markup.backslashes n ++ ((": " : Text).map Markup.Token.plain ++ Markup.tokens rest) := by
    show Markup.tokensBehind n (.char ':' :: .char ' ' :: rest) = _
    rw [Markup.tokensBehind_plain n _ (by decide) (by decide), Markup.tokensBehind_plain 0 _ (by decide) (by decide)]
    rfl
  have htokens : Markup.tokens (": " ++ Markup.escape message) =
      (": " : Text).map Markup.Token.plain ++ Markup.tokens (Markup.escape message) := hcolon 0 _
  refine ⟨fun n => ?_, htokens⟩
  rw [hcolon n, htokens]

theorem left_reported (message : Text) :
    (Markup.tokens (": " ++ Markup.escape message)).flatMap Markup.Token.left = ": " ++ Markup.leftOf message := by
  rw [(tokens_reported message).2, List.flatMap_append, Markup.left_plain, Markup.leftOf]

theorem isLiteral_reported (message : Text) : ∀ t ∈ Markup.tokens (": " ++ Markup.escape message), t.IsLiteral := by
  rw [(tokens_reported message).2, List.forall_mem_append]
  exact ⟨List.forall_mem_map.mpr fun _ _ => trivial, Markup.isLiteral_of_mem_tokens_escape⟩

theorem markup_failedCheck (path : Path) (trouble : Trouble) :
    (Message.failedCheck path trouble).markup =
        "[red]✗[/red] " ++ (path.toText ++ (": " ++ Markup.escape trouble.message)) ∧
      (Message.failedCheck path trouble).words = "✗ " ++ (path.toText ++ (": " ++ trouble.message)) := by
  simp only [markup, words, List.append_assoc, and_self]

/-- A plain message tells its words. -/
theorem tells {m : Message} (h : m.IsPlain) : Tells m.markup m.words := by
  cases m with
  | unknownFormat format => exact (between_unknownFormat format).tells h
  | written target => exact (between_written target).tells h
  | counted path forest => exact (between_counted path forest).tells h
  | title path =>
    obtain ⟨hname, hend⟩ := h
    obtain ⟨p, hreads, hp, hleft, hopened⟩ := exists_reads_title
    have hbold : Console.OwnStyle "bold" := Console.ownStyle_of_mem (by decide)
    have hclose := hbold.tag_close_eq (p.put path.name) hopened
    have hread := hreads.read_of_unmarked_tagged hbold.closes hname hend hclose
    rw [markup_title]
    refine ⟨_, hread, ⟨List.forall_mem_nil _, List.forall_mem_cons.mpr ⟨hbold.readable, hp.stretches⟩⟩, ?_⟩
    show (p.put path.name).read.reverse = _
    rw [p.read_put, hleft]
    rfl
  | failedShow trouble =>
    have htells := prints_error.tells_escape trouble.message
    rwa [Markup.leftOf_eq_iff.mpr h] at htells
  | failedCheck path trouble =>
    obtain ⟨hpath, hmessage⟩ := h
    have htells := prints_cross.tells_unmarked (tokens_reported trouble.message).1
      (isLiteral_reported trouble.message) hpath
    rw [left_reported, Markup.leftOf_eq_iff.mpr hmessage] at htells
    rwa [(markup_failedCheck path trouble).1, (markup_failedCheck path trouble).2]

/-- A message that tells its words is plain. -/
theorem isPlain_of_plain {m : Message} (h : Markup.plain m.markup = .ok m.words) : m.IsPlain := by
  cases m with
  | unknownFormat format => exact (between_unknownFormat format).unmarked h
  | written target => exact (between_written target).unmarked h
  | counted path forest => exact (between_counted path forest).unmarked h
  | title path =>
    obtain ⟨p, hreads, -, hleft, -⟩ := exists_reads_title
    have hbold : Console.OwnStyle "bold" := Console.ownStyle_of_mem (by decide)
    rw [markup_title] at h
    refine hreads.unmarked_of_plain_tagged hbold.closes ?_
    rw [hleft]
    exact h
  | failedShow trouble =>
    have htells := (prints_error.tells_escape trouble.message).plain_eq
    have hleft := List.append_cancel_left (Except.ok.inj (htells.symm.trans h))
    exact Markup.leftOf_eq_iff.mp hleft
  | failedCheck path trouble =>
    have hbrackets : Markup.brackets (": " ++ Markup.escape trouble.message) =
        Markup.brackets (": " ++ trouble.message) := by
      rw [Markup.brackets_append, Markup.brackets_append, Markup.brackets_escape]
    rw [(markup_failedCheck path trouble).1, (markup_failedCheck path trouble).2] at h
    obtain ⟨hpath, hmessage⟩ :=
      prints_cross.unmarked_of_plain (tokens_reported trouble.message).1 (Nat.le_of_eq hbrackets) h
    rw [left_reported] at hmessage
    exact ⟨hpath, Markup.leftOf_eq_iff.mp (List.append_cancel_left hmessage)⟩

end Message

/-! ## Runs that say a message -/

/-- The lines of a tree under a title that is shown as `title`. -/
def drawnUnder (terminal : Terminal) (title : Text) (below : List Text) : Text :=
  ((title.splitOn (.char '\n')).flatMap (terminal.lines terminal.columns) ++ below).flatMap (· ++ "\n")

/-- `w.Says request m written finish`: a run says `m` after it has `written` to a file, or to none, and with the text
    that is shown of `m` it ends as `finish` says. -/
inductive World.Says (w : World) : Request → Message → Option (Path × List UInt8) → (Text → Ending) → Prop
  | unknownFormat {path : Path} {format : Text} {output : Option Path} {depth : Option Nesting.Limit} :
      Format.ofText? format = none →
      Says w (.showing path format output depth) (.unknownFormat format) none fun t => failed none (t ++ "\n")
  | title {path : Path} {depth : Option Nesting.Limit} {settings : Settings} {forest : List Field} {below : List Text} :
      w.Builds path depth settings forest → Outline.drawChildren w.terminal [] (Outline.ofFields forest) = .ok below →
      Says w (.showing path Format.tree.name none depth) (.title path) none
        fun t => (succeeded none (drawnUnder w.terminal t below)).behind w.notices
  | written {path target : Path} (format : Format) {depth : Option Nesting.Limit} {settings : Settings}
      {forest : List Field} {text : Text} {spot : Spot} :
      w.Builds path depth settings forest → shownText format (titleOf path) forest = .ok text →
      w.write target = .ok spot → text.hasLoneSurrogate = false → w.store target (Utf8.encode text) = .ok () →
      Says w (.showing path format.name (some target) depth) (.written target) (some (target, Utf8.encode text))
        fun t => (succeeded (some (target, Utf8.encode text)) (t ++ "\n")).behind w.notices
  | unwritten {path target : Path} (format : Format) {depth : Option Nesting.Limit} {settings : Settings}
      {forest : List Field} {text : Text} {e : SystemError} :
      w.Builds path depth settings forest → shownText format (titleOf path) forest = .ok text →
      w.write target = .error e →
      Says w (.showing path format.name (some target) depth) (.failedShow (.unwritten target e)) none
        fun t => (failed none (t ++ "\n")).behind w.notices
  | unstored {path target : Path} (format : Format) {depth : Option Nesting.Limit} {settings : Settings}
      {forest : List Field} {text : Text} {spot : Spot} {s : Shortage} :
      w.Builds path depth settings forest → shownText format (titleOf path) forest = .ok text →
      w.write target = .ok spot → text.hasLoneSurrogate = false → w.store target (Utf8.encode text) = .error s →
      Says w (.showing path format.name (some target) depth) (.failedShow (.unstored s.cause))
        (some (target, (Utf8.encode text).take s.kept))
        fun t => (failed (some (target, (Utf8.encode text).take s.kept)) (t ++ "\n")).behind w.notices
  | failedShow {path : Path} (format : Format) (output : Option Path) {depth : Option Nesting.Limit} {trouble : Trouble} :
      w.Troubled path depth trouble →
      Says w (.showing path format.name output depth) (.failedShow trouble) none
        fun t => (failed none (t ++ "\n")).behind w.notices
  | counted {path : Path} {depth : Option Nesting.Limit} {settings : Settings} {forest : List Field} :
      w.Builds path depth settings forest →
      Says w (.checking path depth) (.counted path forest) none
        fun t => (succeeded none (t ++ "\n")).behind w.notices
  | failedCheck {path : Path} {depth : Option Nesting.Limit} {trouble : Trouble} :
      w.Troubled path depth trouble →
      Says w (.checking path depth) (.failedCheck path trouble) none
        fun t => (failed none (t ++ "\n")).behind w.notices

/-- The end of a run that says a message, or breaks off because the message cannot be read. -/
def Message.said (m : Message) (terminal : Terminal) (written : Option (Path × List UInt8)) (finish : Text → Ending) :
    Ending :=
  match Console.shownMarked terminal m.markup with
  | .ok t => finish t
  | .error e => .broken (.markup e) written

section

variable {terminal : Terminal} {m : Message} {written : Option (Path × List UInt8)} {finish : Text → Ending}

theorem Message.said_of_ok {t : Text} (h : Console.shownMarked terminal m.markup = .ok t) :
    m.said terminal written finish = finish t := by
  rw [said, h]

theorem Message.said_of_error {e : Markup.MarkupError} (h : Console.shownMarked terminal m.markup = .error e) :
    m.said terminal written finish = .broken (.markup e) written := by
  rw [said, h]

variable (terminal m written)

theorem printed_eq_said :
    printed terminal written m.markup = m.said terminal written fun t => succeeded written (t ++ "\n") := by
  unfold printed Message.said Console.markedLine
  cases Console.shownMarked terminal m.markup <;> rfl

theorem refused_eq_said :
    refused terminal written m.markup = m.said terminal written fun t => failed written (t ++ "\n") := by
  unfold refused Message.said Console.markedLine
  cases Console.shownMarked terminal m.markup <;> rfl

theorem behind_said (finish : Text → Ending) (notices : Text) :
    (m.said terminal written finish).behind notices = m.said terminal written fun t => (finish t).behind notices := by
  unfold Message.said
  cases Console.shownMarked terminal m.markup <;> rfl

end

theorem draw_ofForest {terminal : Terminal} {title : Text} {forest : List Field} {below : List Text}
    (h : Outline.drawChildren terminal [] (Outline.ofFields forest) = .ok below) :
    (Outline.ofForest title forest).draw terminal =
      (Console.shownMarked terminal title).map fun t => drawnUnder terminal t below := by
  unfold Outline.draw Outline.ofForest
  rw [Outline.drawAt, h, Outline.labelLines]
  cases Console.shownMarked terminal title with
  | error e => rfl
  | ok t =>
    simp only [Except.map, drawnUnder, List.length_nil, Nat.sub_zero]
    cases (t.splitOn (.char '\n')).flatMap (terminal.lines terminal.columns) <;> simp [bind, Except.bind, pure, Except.pure]

/-- A title that is not too long stands in a line of its own. -/
theorem drawnUnder_of_fits {terminal : Terminal} {title : Text} (hline : .char '\n' ∉ title)
    (hcells : Text.cells title.trimEnd ≤ terminal.columns) (hlength : title.length ≤ terminal.columns) (below : List Text) :
    drawnUnder terminal title below = (title :: below).flatMap (· ++ ("\n" : Text)) := by
  have hfitted : Console.fitted terminal.columns title = title := by
    unfold Console.fitted
    dsimp only
    rw [Nat.sub_eq_zero_of_le hlength, Nat.min_zero, Nat.sub_zero, List.take_length]
  have hlines : terminal.lines terminal.columns title = [title] := by
    rw [Terminal.lines, if_pos hcells, hfitted]
  rw [drawnUnder, List.splitOn_eq_singleton hline, List.flatMap_singleton, hlines]
  rfl

section

variable {w : World} {path target : Path} {format : Format} {forest : List Field} {text : Text}

theorem not_tree_of_output (format : Format) (target : Path) : ¬ (format = .tree ∧ (some target).isNone = true) := by
  intro h
  exact absurd h.2 Bool.false_ne_true

/-- A file that cannot be written to. -/
theorem showForest_of_unwritten (h : shownText format (titleOf path) forest = .ok text) {e : SystemError}
    (hwrite : w.write target = .error e) :
    w.showForest path format (some target) forest = reported w.terminal none errorFront (.unwritten target e) := by
  simp only [World.showForest, if_neg (not_tree_of_output format target), h, hwrite]

/-- What is done with a forest that has a text and a file to write it to. -/
theorem showForest_of_written (h : shownText format (titleOf path) forest = .ok text) {spot : Spot}
    (hwrite : w.write target = .ok spot) :
    w.showForest path format (some target) forest = w.writeOpened target text := by
  simp only [World.showForest, if_neg (not_tree_of_output format target), h, hwrite]

theorem writeOpened_of_unencodable (hlone : text.hasLoneSurrogate = true) :
    w.writeOpened target text = .broken .unencodable (some (target, [])) := if_pos hlone

theorem writeOpened_of_stored (hlone : text.hasLoneSurrogate = false)
    (hstore : w.store target (Utf8.encode text) = .ok ()) :
    w.writeOpened target text =
      (Message.written target).said w.terminal (some (target, Utf8.encode text))
        fun t => succeeded (some (target, Utf8.encode text)) (t ++ "\n") := by
  unfold World.writeOpened
  rw [hlone, if_neg Bool.false_ne_true]
  dsimp only
  rw [hstore]
  exact printed_eq_said w.terminal (.written target) _

theorem writeOpened_of_unstored (hlone : text.hasLoneSurrogate = false) {s : Shortage}
    (hstore : w.store target (Utf8.encode text) = .error s) :
    w.writeOpened target text =
      (Message.failedShow (.unstored s.cause)).said w.terminal (some (target, (Utf8.encode text).take s.kept))
        fun t => failed (some (target, (Utf8.encode text).take s.kept)) (t ++ "\n") := by
  unfold World.writeOpened
  rw [hlone, if_neg Bool.false_ne_true]
  dsimp only
  rw [hstore]
  exact refused_eq_said w.terminal (.failedShow (.unstored s.cause)) _

end

namespace World.Says

variable {w : World} {request : Request} {m : Message} {written : Option (Path × List UInt8)} {finish : Text → Ending}

/-- A run that says a message ends with it. -/
theorem run_eq (h : w.Says request m written finish) {texts : List Text}
    (htexts : Request.ofTexts? texts = some request) :
    run w texts = m.said w.terminal written finish := by
  unfold run
  rw [htexts]
  cases h with
  | @unknownFormat path format output depth hformat =>
    show runShow w path format output depth = _
    unfold runShow
    rw [hformat]
    exact refused_eq_said w.terminal (.unknownFormat format) none
  | @title path depth settings forest below hbuilds hbelow =>
    have hshown : w.showForest path .tree none forest =
        (Message.title path).said w.terminal none fun t => succeeded none (drawnUnder w.terminal t below) := by
      unfold World.showForest Message.said
      rw [if_pos ⟨rfl, rfl⟩, draw_ofForest hbelow, Message.markup]
      cases Console.shownMarked w.terminal (Outline.styled "bold" (titleOf path)) <;> rfl
    show runShow w path Format.tree.name none depth = _
    rw [runShow_eq, handled_of_builds hbuilds, hshown, behind_said]
  | @written path target format depth settings forest text spot hbuilds htext hwrite hlone hstore =>
    show runShow w path format.name (some target) depth = _
    rw [runShow_eq, handled_of_builds hbuilds, showForest_of_written htext hwrite, writeOpened_of_stored hlone hstore,
      behind_said]
  | @unwritten path target format depth settings forest text e hbuilds htext hwrite =>
    show runShow w path format.name (some target) depth = _
    rw [runShow_eq, handled_of_builds hbuilds, showForest_of_unwritten htext hwrite, ← behind_said]
    exact congrArg _ (refused_eq_said w.terminal (.failedShow (.unwritten target e)) none)
  | @unstored path target format depth settings forest text spot s hbuilds htext hwrite hlone hstore =>
    show runShow w path format.name (some target) depth = _
    rw [runShow_eq, handled_of_builds hbuilds, showForest_of_written htext hwrite, writeOpened_of_unstored hlone hstore,
      behind_said]
  | @failedShow path format output depth trouble htroubled =>
    show runShow w path format.name output depth = _
    rw [runShow_eq, handled_eq_reported htroubled, ← behind_said]
    exact congrArg _ (refused_eq_said w.terminal (.failedShow trouble) none)
  | @counted path depth settings forest hbuilds =>
    show runCheck w path depth = _
    rw [runCheck_eq, handled_of_builds hbuilds, ← behind_said]
    exact congrArg _ (printed_eq_said w.terminal (.counted path forest) none)
  | @failedCheck path depth trouble htroubled =>
    show runCheck w path depth = _
    rw [runCheck_eq, handled_eq_reported htroubled, ← behind_said]
    exact congrArg _ (refused_eq_said w.terminal (.failedCheck path trouble) none)

end World.Says

theorem Format.eq_name_of_ofText? {t : Text} {format : Format} (h : Format.ofText? t = some format) :
    t = format.name := by
  have hname := List.find?_some h
  exact (eq_of_beq hname).symm

/-- What shows a forest without markup: a listing or a saved forest that is not written to a file. -/
def ShowsUnmarked (w : World) (request : Request) : Prop :=
  ∃ (path : Path) (format : Format) (depth : Option Nesting.Limit) (settings : Settings) (forest : List Field),
    request = .showing path format.name none depth ∧ format ≠ .tree ∧ w.Builds path depth settings forest

section

variable {w : World} {path : Path} {depth : Option Nesting.Limit} {settings : Settings} {forest : List Field}

theorem exists_answered_of_behind {e : Ending} {notices : Text} {a : Answer} (h : e.behind notices = .answered a) :
    ∃ b, e = .answered b := by
  cases e with
  | answered b => exact ⟨b, rfl⟩
  | _ => cases h

theorem says_of_showForest {format : Format} {output : Option Path} {a : Answer}
    (hbuilds : w.Builds path depth settings forest) (h : w.showForest path format output forest = .answered a) :
    (∃ m written finish, w.Says (.showing path format.name output depth) m written finish) ∨
      ShowsUnmarked w (.showing path format.name output depth) := by
  cases output with
  | none =>
    by_cases hformat : format = .tree
    · subst hformat
      obtain ⟨below, hbelow⟩ := Outline.drawChildren_eq_ok w.terminal [] forest
      exact .inl ⟨_, _, _, .title hbuilds hbelow⟩
    · exact .inr ⟨path, format, depth, settings, forest, rfl, hformat, hbuilds⟩
  | some target =>
    left
    cases htext : shownText format (titleOf path) forest with
    | error e =>
      unfold World.showForest at h
      rw [if_neg (not_tree_of_output format target), htext] at h
      cases h
    | ok text =>
      cases hwrite : w.write target with
      | error e => exact ⟨_, _, _, .unwritten format hbuilds htext hwrite⟩
      | ok spot =>
        rw [showForest_of_written htext hwrite] at h
        cases hlone : text.hasLoneSurrogate with
        | true =>
          rw [writeOpened_of_unencodable hlone] at h
          cases h
        | false =>
          cases hstore : w.store target (Utf8.encode text) with
          | ok stored => exact ⟨_, _, _, .written format hbuilds htext hwrite hlone hstore⟩
          | error s => exact ⟨_, _, _, .unstored format hbuilds htext hwrite hlone hstore⟩

/-- A run that is answered says a message, or shows the forest without markup. -/
theorem says_of_answered {texts : List Text} {a : Answer} (h : run w texts = .answered a) :
    ∃ request, Request.ofTexts? texts = some request ∧
      ((∃ m written finish, w.Says request m written finish) ∨ ShowsUnmarked w request) := by
  unfold run at h
  cases hrequest : Request.ofTexts? texts with
  | none =>
    rw [hrequest] at h
    cases h
  | some request =>
    refine ⟨request, rfl, ?_⟩
    rw [hrequest] at h
    cases request with
    | help => cases h
    | showing path name output depth =>
      cases hformat : Format.ofText? name with
      | none => exact .inl ⟨_, _, _, .unknownFormat hformat⟩
      | some format =>
        obtain rfl := Format.eq_name_of_ofText? hformat
        have hshow : runShow w path format.name output depth = .answered a := h
        rw [World.runShow_eq] at hshow
        rcases World.handled_cases w path depth errorFront fun forest => w.showForest path format output forest with
          ⟨settings, forest, hbuilds⟩ | ⟨trouble, htroubled⟩ | ⟨b, hbroken⟩
        · rw [World.handled_of_builds hbuilds] at hshow
          obtain ⟨b, hb⟩ := exists_answered_of_behind hshow
          exact says_of_showForest hbuilds hb
        · exact .inl ⟨_, _, _, .failedShow format output htroubled⟩
        · rw [hbroken] at hshow
          cases hshow
    | checking path depth =>
      have hcheck : runCheck w path depth = .answered a := h
      rw [World.runCheck_eq] at hcheck
      rcases World.handled_cases w path depth _ _ with
        ⟨settings, forest, hbuilds⟩ | ⟨trouble, htroubled⟩ | ⟨b, hbroken⟩
      · exact .inl ⟨_, _, _, .counted hbuilds⟩
      · exact .inl ⟨_, _, _, .failedCheck htroubled⟩
      · rw [hbroken] at hcheck
        cases hcheck

end

/-- A message tells its words exactly if nothing in the paths and the name of the format that it holds is taken
    for markup, and nothing of what goes wrong gets lost. A run that says a message ends with what the terminal
    shows of it, which is its words if there is no emoji for any part of it, or breaks off if it cannot be read;
    a title that fits in the columns stands in a line of its own. And a run that is answered says a message,
    unless it shows the forest without markup. -/
theorem told_literally_iff (w : World) (texts : List Text) :
    (∀ m : Message, Markup.plain m.markup = .ok m.words ↔ m.IsPlain) ∧
    (∀ request m written finish, Request.ofTexts? texts = some request → w.Says request m written finish →
      (m.IsPlain → run w texts = finish (Console.shown (w.terminal.emojied m.markup))) ∧
      (m.IsPlain → w.terminal.Keeps m.markup → run w texts = finish (Console.shown m.words)) ∧
      (∀ t, Console.shownMarked w.terminal m.markup = .ok t → run w texts = finish t) ∧
      ∀ e, Console.shownMarked w.terminal m.markup = .error e → run w texts = .broken (.markup e) written) ∧
    (∀ (title : Text) (below : List Text), .char '\n' ∉ title → Text.cells title.trimEnd ≤ w.terminal.columns →
      title.length ≤ w.terminal.columns →
        drawnUnder w.terminal title below = (title :: below).flatMap (· ++ ("\n" : Text))) ∧
    ∀ a, run w texts = .answered a → ∃ request, Request.ofTexts? texts = some request ∧
      ((∃ m written finish, w.Says request m written finish) ∨ ShowsUnmarked w request) := by
  refine ⟨fun m => ⟨Message.isPlain_of_plain, fun h => (Message.tells h).plain_eq⟩, ?_,
    fun title below hline hcells hlength => drawnUnder_of_fits hline hcells hlength below, fun a => says_of_answered⟩
  intro request m written finish htexts hsays
  have hrun := hsays.run_eq htexts
  refine ⟨fun h => ?_, fun h hkeeps => ?_, fun t ht => ?_, fun e he => ?_⟩
  · exact hrun.trans (Message.said_of_ok ((Message.tells h).shownMarked_eq _))
  · exact hrun.trans (Message.said_of_ok ((Message.tells h).shownMarked_of_keeps hkeeps))
  · exact hrun.trans (Message.said_of_ok ht)
  · exact hrun.trans (Message.said_of_error he)

theorem unmarked_of_not_mem {s after : Text} (h : .char '[' ∉ s) : Unmarked s after := by
  constructor
  · intro rest hrest
    exact absurd (hrest.subset List.mem_cons_self) h
  · intro hpair
    exact absurd (hpair.subset (List.mem_cons_of_mem _ List.mem_cons_self)) h

/-- The end of a run that counts a field in the folder, if `t` is shown. -/
theorem counted_in_folder {w : World} {t output : Text} (hnotices : w.notices = []) (houtput : t ++ "\n" = output)
    (hlone : output.hasLoneSurrogate = false) :
    (succeeded none (t ++ "\n")).behind w.notices = .answered ⟨0, output, [], none⟩ := by
  rw [houtput, succeeded, hlone, hnotices]
  rfl

/-- The count of the field in a file whose path has no brackets. -/
theorem told_literally_of_one_file :
    run oneFile ["check", "a.json"] = .answered ⟨0, "✓ a.json: 1 top-level fields, 1 total\n", [], none⟩ := by
  have hplain : (Message.counted (.ofText "a.json") [.mk "a" "int" [] true [] []]).IsPlain :=
    unmarked_of_not_mem (by decide)
  have hrequest : Request.ofTexts? ["check", "a.json"] = some (.checking (.ofText "a.json") none) := rfl
  have hshown : Console.shown (Message.counted (.ofText "a.json") [.mk "a" "int" [] true [] []]).words =
      "✓ a.json: 1 top-level fields, 1 total" := by
    decide +kernel
  obtain ⟨-, htold, -, -⟩ :=
    (told_literally_iff oneFile ["check", "a.json"]).2.1 _ _ _ _ hrequest (.counted builds_oneFile)
  rw [htold hplain (Terminal.keeps_plain _), hshown]
  exact counted_in_folder rfl (by decide +kernel) (by decide +kernel)

/-- A bracket in a path opens a tag, and what stands between it and the next closing bracket is not told. -/
theorem bracketed_path_untold :
    run (fileCalled "m[b].json") ["check", "m[b].json"] =
        .answered ⟨0, "✓ m.json: 1 top-level fields, 1 total\n", [], none⟩ ∧
      (Message.counted (.ofText "m[b].json") [.mk "a" "int" [] true [] []]).words =
        "✓ m[b].json: 1 top-level fields, 1 total" := by
  have hbuilds : (fileCalled "m[b].json").Builds (.ofText "m[b].json") none ⟨64, .warning⟩
      [.mk "a" "int" [] true [] []] :=
    builds_fileCalled rfl rfl rfl
  have hrequest : Request.ofTexts? ["check", "m[b].json"] = some (.checking (.ofText "m[b].json") none) := rfl
  have hshown : Console.shownMarked (fileCalled "m[b].json").terminal
      (Message.counted (.ofText "m[b].json") [.mk "a" "int" [] true [] []]).markup =
        .ok "✓ m.json: 1 top-level fields, 1 total" :=
    toOption_eq_some_iff.mp (by decide +kernel)
  refine ⟨?_, by decide +kernel⟩
  rw [(World.Says.counted hbuilds).run_eq hrequest, Message.said_of_ok hshown]
  exact counted_in_folder rfl (by decide +kernel) (by decide +kernel)

end Command

end FieldForest
