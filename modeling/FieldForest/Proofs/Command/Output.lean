/-
  FieldForest.Proofs.Command.Output — what `show` leaves in the file that it is to write.

  All that can be found out about the settings, the file that is read, the forest and its text is
  found out before the file is opened. From then on three things are left: the text may not be
  encodable, not all of its bytes may be stored, and the message behind it may not be told. In each
  case the run fails, and the file is there, with nothing in it, with the first of the bytes, or with all.

  Proved:
  - `unwritten_handled`: troubles on the way to the forest leave the file as it was.
  - `run_of_writable` / `run_of_unwritable`: what becomes of a text that can be written, and of a
    forest that has none.
  - `ending_of_stored` / `ending_of_unstored`: what becomes of the bytes.
  - `told_of_unmarked`: when the message behind a written file is told.
  - `written_of_run`: all runs with an output file.
-/
import FieldForest.Main
import FieldForest.Proofs.Command.Messages

namespace FieldForest.Command

/-! ## Runs that leave the file as it was -/

/-- A run that fails before it opens a file for writing. -/
structure Ending.Unwritten (e : Ending) : Prop where
  status_eq : e.status = 1
  written_eq : Program.writtenBy e = none

namespace Ending.Unwritten

theorem broken (b : Break) : Unwritten (.broken b none) := ⟨rfl, rfl⟩

theorem refused (terminal : Terminal) (line : Text) : Unwritten (refused terminal none line) := by
  unfold Command.refused
  split <;> exact ⟨rfl, rfl⟩

theorem behind {e : Ending} (h : e.Unwritten) (notices : Text) : (e.behind notices).Unwritten := by
  cases e <;> exact ⟨h.status_eq, h.written_eq⟩

end Ending.Unwritten

section

variable {w : World} {path target : Path} {depth : Option Nesting.Limit} {name text : Text}

/-- Troubles on the way to the forest leave the file as it was. -/
theorem unwritten_handled {front : Text} {next : List Field → Ending}
    (h : ∀ settings forest, w.Builds path depth settings forest → (next forest).Unwritten) :
    (w.handled path depth front next).Unwritten := by
  rcases World.handled_cases w path depth front next with
    ⟨settings, forest, hbuilds⟩ | ⟨trouble, htroubled⟩ | ⟨b, hbroken⟩
  · rw [World.handled_of_builds hbuilds]
    exact (h settings forest hbuilds).behind _
  · rw [World.handled_eq_reported htroubled]
    exact (Ending.Unwritten.refused _ _).behind _
  · rw [hbroken]
    exact .broken b

/-! ## The text that is to be written -/

variable (w path depth name) in
/-- The text that the file builds a forest for: as it is saved, or its listing in the other formats. -/
def World.HasText (text : Text) : Prop :=
  ∃ format settings forest, name = Format.name format ∧ w.Builds path depth settings forest ∧
    (format = .json → Forest.dump (some 2) forest = .ok text) ∧
    (format ≠ .json → text = Forest.listing ("Schema: " ++ path.name) forest)

theorem shownText_eq_ok_iff {format : Format} {title : Text} {forest : List Field} :
    shownText format title forest = .ok text ↔
      (format = .json → Forest.dump (some 2) forest = .ok text) ∧
      (format ≠ .json → text = Forest.listing title forest) := by
  cases format with
  | json => simp [shownText]
  | _ => simp [shownText, eq_comm]

theorem World.hasText_iff :
    w.HasText path depth name text ↔ ∃ format settings forest, name = Format.name format ∧
      w.Builds path depth settings forest ∧ shownText format (titleOf path) forest = .ok text := by
  simp only [HasText, shownText_eq_ok_iff, titleOf]

/-- A message that a terminal can read and print. -/
def Message.IsTold (m : Message) (terminal : Terminal) : Prop :=
  ∃ t, Console.shownMarked terminal m.markup = .ok t ∧ (t ++ "\n" : Text).hasLoneSurrogate = false

/-- What becomes of a run that says a message behind a file. -/
theorem said_succeeded (m : Message) (terminal : Terminal) (written : Option (Path × List UInt8)) :
    (m.IsTold terminal → ∃ output,
      (m.said terminal written fun t => succeeded written (t ++ "\n")) = .answered ⟨0, output, [], written⟩) ∧
    (¬ m.IsTold terminal → ∃ b,
      (m.said terminal written fun t => succeeded written (t ++ "\n")) = .broken b written) := by
  unfold Message.said Message.IsTold
  cases Console.shownMarked terminal m.markup with
  | error e =>
    refine ⟨?_, fun _ => ⟨.markup e, rfl⟩⟩
    rintro ⟨t, ht, -⟩
    cases ht
  | ok t =>
    dsimp only
    unfold succeeded
    constructor
    · rintro ⟨_, ht, hlone⟩
      cases ht
      rw [hlone]
      exact ⟨_, rfl⟩
    · intro hnot
      split
      · exact ⟨.unencodable, rfl⟩
      · rename_i hlone
        exact absurd ⟨t, rfl, Bool.eq_false_iff.mpr hlone⟩ hnot

/-- A path that is not taken for markup and can be printed is told. -/
theorem told_of_unmarked (terminal : Terminal) (hunmarked : Markup.Unmarked target.toText [])
    (hlone : target.toText.hasLoneSurrogate = false) : (Message.written target).IsTold terminal := by
  have hplain : (Message.written target).IsPlain := hunmarked
  have htells := Message.tells hplain
  have hwords : (Message.written target).words.hasLoneSurrogate = false := by
    rw [Message.words, Json.hasLoneSurrogate_append, Text.hasLoneSurrogate_ofString, hlone]
    rfl
  refine ⟨_, htells.shownMarked_eq terminal, ?_⟩
  rw [Json.hasLoneSurrogate_append, Console.hasLoneSurrogate_shown (htells.hasLoneSurrogate_emojied hwords)]
  rfl

/-! ## Runs with an output file -/

variable {texts : List Text} (hrequest : Request.ofTexts? texts = some (.showing path name (some target) depth))

include hrequest

/-- A text is written if there is a file to write it to. -/
theorem run_of_writable (htext : w.HasText path depth name text) {spot : Spot} (hwrite : w.write target = .ok spot) :
    run w texts = (w.writeOpened target text).behind w.notices := by
  obtain ⟨format, settings, forest, rfl, hbuilds, hshown⟩ := World.hasText_iff.mp htext
  unfold run
  rw [hrequest]
  dsimp only
  rw [World.runShow_eq, World.handled_of_builds hbuilds, showForest_of_written hshown hwrite]

/-- Of a file with all the bytes the run says so, if it can. -/
theorem ending_of_stored (htext : w.HasText path depth name text) {spot : Spot} (hwrite : w.write target = .ok spot)
    (hlone : text.hasLoneSurrogate = false) (hstore : w.store target (Utf8.encode text) = .ok ()) :
    ((Message.written target).IsTold w.terminal →
      (run w texts).status = 0 ∧ Program.writtenBy (run w texts) = some (target, Utf8.encode text)) ∧
    (¬ (Message.written target).IsTold w.terminal →
      ∃ b, run w texts = .broken b (some (target, Utf8.encode text))) := by
  obtain ⟨htold, huntold⟩ := said_succeeded (.written target) w.terminal (some (target, Utf8.encode text))
  rw [run_of_writable hrequest htext hwrite, writeOpened_of_stored hlone hstore]
  refine ⟨fun h => ?_, fun h => ?_⟩
  · obtain ⟨output, hsaid⟩ := htold h
    rw [hsaid]
    exact ⟨rfl, rfl⟩
  · obtain ⟨b, hsaid⟩ := huntold h
    rw [hsaid]
    exact ⟨b, rfl⟩

/-- A file without all the bytes keeps those that are stored. -/
theorem ending_of_unstored (htext : w.HasText path depth name text) {spot : Spot} (hwrite : w.write target = .ok spot)
    (hlone : text.hasLoneSurrogate = false) {s : Shortage} (hstore : w.store target (Utf8.encode text) = .error s) :
    (run w texts).status = 1 ∧ Program.writtenBy (run w texts) = some (target, (Utf8.encode text).take s.kept) := by
  rw [run_of_writable hrequest htext hwrite, writeOpened_of_unstored hlone hstore]
  unfold Message.said
  cases Console.shownMarked w.terminal (Message.failedShow (.unstored s.cause)).markup <;> exact ⟨rfl, rfl⟩

/-- A text that cannot be encoded leaves the file empty. -/
theorem run_of_unencodable (htext : w.HasText path depth name text) {spot : Spot} (hwrite : w.write target = .ok spot)
    (hlone : text.hasLoneSurrogate = true) : run w texts = .broken .unencodable (some (target, [])) := by
  rw [run_of_writable hrequest htext hwrite, writeOpened_of_unencodable hlone]
  rfl

/-- Without a text, or a file that can be written to, the file is left as it was. -/
theorem run_of_unwritable (h : ∀ text spot, w.HasText path depth name text → w.write target ≠ .ok spot) :
    (run w texts).Unwritten := by
  unfold run
  rw [hrequest]
  dsimp only
  cases hformat : Format.ofText? name with
  | none =>
    unfold runShow
    rw [hformat]
    exact .refused _ _
  | some format =>
    obtain rfl := Format.eq_name_of_ofText? hformat
    rw [World.runShow_eq]
    refine unwritten_handled fun settings forest hbuilds => ?_
    cases hshown : shownText format (titleOf path) forest with
    | error e =>
      unfold World.showForest
      rw [if_neg (not_tree_of_output format target), hshown]
      exact .broken _
    | ok text =>
      cases hwrite : w.write target with
      | error e =>
        rw [showForest_of_unwritten hshown hwrite]
        exact .refused _ _
      | ok spot =>
        have htext := World.hasText_iff.mpr ⟨format, settings, forest, rfl, hbuilds, hshown⟩
        exact absurd hwrite (h text spot htext)

/-- A run that succeeds leaves the bytes of the text. -/
theorem written_of_succeeded (hstatus : (run w texts).status = 0) :
    ∃ text, w.HasText path depth name text ∧ Program.writtenBy (run w texts) = some (target, Utf8.encode text) ∧
      Utf8.decode (Utf8.encode text) = .ok text := by
  by_cases h : ∃ text spot, w.HasText path depth name text ∧ w.write target = .ok spot
  · obtain ⟨text, spot, htext, hwrite⟩ := h
    refine ⟨text, htext, ?_⟩
    cases hlone : text.hasLoneSurrogate with
    | true =>
      rw [run_of_unencodable hrequest htext hwrite hlone] at hstatus
      cases hstatus
    | false =>
      refine ⟨?_, Utf8.decode_encode hlone⟩
      cases hstore : w.store target (Utf8.encode text) with
      | ok stored =>
        obtain ⟨htold, huntold⟩ := ending_of_stored hrequest htext hwrite hlone hstore
        by_cases h : (Message.written target).IsTold w.terminal
        · exact (htold h).2
        · obtain ⟨b, hb⟩ := huntold h
          rw [hb] at hstatus
          cases hstatus
      | error s =>
        rw [(ending_of_unstored hrequest htext hwrite hlone hstore).1] at hstatus
        cases hstatus
  · have hfails := run_of_unwritable (w := w) hrequest fun text spot htext hwrite => h ⟨text, spot, htext, hwrite⟩
    rw [hfails.status_eq] at hstatus
    cases hstatus

end

/-- A run with an output file that succeeds leaves in it the bytes of the text of the forest, unless it is
    asked for help. One that fails leaves the file as it was if it asks for nothing, if the forest has no
    text, or if the file cannot be written to. But a run that has a text and a file to write it to fails with the file
    empty if the text cannot be encoded, with the first of its bytes if not all are stored, and with all
    of them if the message behind the file is not told. The message is told if no part of the path is
    taken for markup, and the path can be printed. -/
theorem written_of_run (w : World) (texts : List Text) :
    (Request.ofTexts? texts = none → (run w texts).status = 2 ∧ Program.writtenBy (run w texts) = none) ∧
    (Request.ofTexts? texts = some .help → (run w texts).status = 0 ∧ Program.writtenBy (run w texts) = none) ∧
    ∀ path name target depth, Request.ofTexts? texts = some (.showing path name (some target) depth) →
      ((run w texts).status = 0 → ∃ text, w.HasText path depth name text ∧
        Program.writtenBy (run w texts) = some (target, Utf8.encode text) ∧
          Utf8.decode (Utf8.encode text) = .ok text) ∧
      (∀ text spot, w.HasText path depth name text → w.write target = .ok spot →
        (text.hasLoneSurrogate = true → run w texts = .broken .unencodable (some (target, []))) ∧
        (text.hasLoneSurrogate = false →
          (∀ s, w.store target (Utf8.encode text) = .error s → (run w texts).status = 1 ∧
            Program.writtenBy (run w texts) = some (target, (Utf8.encode text).take s.kept)) ∧
          (w.store target (Utf8.encode text) = .ok () →
            ((Message.written target).IsTold w.terminal →
              (run w texts).status = 0 ∧ Program.writtenBy (run w texts) = some (target, Utf8.encode text)) ∧
            (¬ (Message.written target).IsTold w.terminal →
              ∃ b, run w texts = .broken b (some (target, Utf8.encode text)))))) ∧
      ((∀ text spot, w.HasText path depth name text → w.write target ≠ .ok spot) →
        (run w texts).status = 1 ∧ Program.writtenBy (run w texts) = none) ∧
      (Markup.Unmarked target.toText [] → target.toText.hasLoneSurrogate = false →
        (Message.written target).IsTold w.terminal) := by
  refine ⟨fun h => ?_, fun h => ?_, fun path name target depth h => ⟨written_of_succeeded h,
    fun text spot htext hwrite => ⟨run_of_unencodable h htext hwrite, fun hlone => ⟨fun s hstore =>
      ending_of_unstored h htext hwrite hlone hstore, ending_of_stored h htext hwrite hlone⟩⟩, fun hno => ?_,
    told_of_unmarked w.terminal⟩⟩
  · unfold run
    rw [h]
    exact ⟨rfl, rfl⟩
  · unfold run
    rw [h]
    exact ⟨rfl, rfl⟩
  · obtain ⟨hstatus, hwritten⟩ := run_of_unwritable h hno
    exact ⟨hstatus, hwritten⟩

/-- A folder with one file, to which the document of one field is written, and room for another file
    of so many bytes. -/
def folderWithRoom (room : Nat) : World where
  environment := []
  read := oneFile.read
  write _ := .ok .beside
  store _ bytes := if bytes.length ≤ room then .ok () else .error ⟨room, ⟨28, "No space left on device"⟩⟩
  terminal := .plain
  stack := .usual
  details _ := []

theorem store_of_le {room : Nat} {bytes : List UInt8} (h : bytes.length ≤ room) (path : Path) :
    (folderWithRoom room).store path bytes = .ok () := if_pos h

theorem store_of_lt {room : Nat} {bytes : List UInt8} (h : room < bytes.length) (path : Path) :
    (folderWithRoom room).store path bytes = .error ⟨room, ⟨28, "No space left on device"⟩⟩ :=
  if_neg (Nat.not_le.mpr h)

/-- The listing of the file in that folder. -/
def writtenListing : Text := Forest.listing ("Schema: " ++ "a.json") [.mk "a" "int" [] true [] []]

theorem hasText_folderWithRoom (room : Nat) :
    (folderWithRoom room).HasText (.ofText "a.json") none "tree" writtenListing := by
  have hbuilds : (folderWithRoom room).Builds (.ofText "a.json") none ⟨64, .warning⟩ [.mk "a" "int" [] true [] []] :=
    builds_oneFile
  exact ⟨.tree, _, _, rfl, hbuilds, (fun h => by cases h), fun _ => rfl⟩

/-- With room for all of the listing it is written, and with room for ten bytes the first ten are. -/
theorem written_in_folder :
    ((run (folderWithRoom 1000) ["show", "a.json", "-o", "x.txt"]).status = 0 ∧
      Program.writtenBy (run (folderWithRoom 1000) ["show", "a.json", "-o", "x.txt"]) =
        some (.ofText "x.txt", Utf8.encode writtenListing)) ∧
    (run (folderWithRoom 10) ["show", "a.json", "-o", "x.txt"]).status = 1 ∧
      Program.writtenBy (run (folderWithRoom 10) ["show", "a.json", "-o", "x.txt"]) =
        some (.ofText "x.txt", Utf8.encode "Schema: a.") := by
  have hrequest : Request.ofTexts? ["show", "a.json", "-o", "x.txt"] =
      some (.showing (.ofText "a.json") "tree" (some (.ofText "x.txt")) none) := rfl
  have hlone : writtenListing.hasLoneSurrogate = false := by decide +kernel
  constructor
  · obtain ⟨-, -, hruns⟩ := written_of_run (folderWithRoom 1000) ["show", "a.json", "-o", "x.txt"]
    obtain ⟨-, hwritten, -, htold⟩ := hruns _ _ _ _ hrequest
    have hroom : (Utf8.encode writtenListing).length ≤ 1000 := by decide +kernel
    exact (((hwritten _ _ (hasText_folderWithRoom 1000) rfl).2 hlone).2 (store_of_le hroom _)).1
      (htold (unmarked_of_not_mem (by decide)) (by decide))
  · obtain ⟨-, -, hruns⟩ := written_of_run (folderWithRoom 10) ["show", "a.json", "-o", "x.txt"]
    obtain ⟨-, hwritten, -, -⟩ := hruns _ _ _ _ hrequest
    have hroom : 10 < (Utf8.encode writtenListing).length := by decide +kernel
    have htake : (Utf8.encode writtenListing).take 10 = Utf8.encode "Schema: a." := by decide +kernel
    rw [← htake]
    exact ((hwritten _ _ (hasText_folderWithRoom 10) rfl).2 hlone).1 _ (store_of_lt hroom _)

/-- The path is taken for a colour whose shares cannot be read, when the file is written. -/
theorem written_by_failed_run :
    ∃ b, run (folderWithRoom 1000) ["show", "a.json", "-o", "[rgb(,,)]x.txt"] =
      .broken b (some (.ofText "[rgb(,,)]x.txt", Utf8.encode writtenListing)) := by
  have hrequest : Request.ofTexts? ["show", "a.json", "-o", "[rgb(,,)]x.txt"] =
      some (.showing (.ofText "a.json") "tree" (some (.ofText "[rgb(,,)]x.txt")) none) := rfl
  have huntold : ∃ e, Console.shownMarked (folderWithRoom 1000).terminal
      (Message.written (.ofText "[rgb(,,)]x.txt")).markup = .error e :=
    toOption_eq_none_iff.mp (by decide +kernel)
  have hroom : (Utf8.encode writtenListing).length ≤ 1000 := by decide +kernel
  refine (ending_of_stored hrequest (hasText_folderWithRoom 1000) rfl (by decide +kernel) (store_of_le hroom _)).2 ?_
  rintro ⟨t, ht, -⟩
  obtain ⟨e, he⟩ := huntold
  cases ht.symm.trans he

end FieldForest.Command
