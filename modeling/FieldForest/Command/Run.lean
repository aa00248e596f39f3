/-
  FieldForest.Command.Run — what the command line answers.

  `show` builds the forest of a file and prints it as a tree, as a listing or as JSON, or
  writes it to a file; `check` builds it and says how many fields it has. What is wrong with
  the settings, the file or the declaration in it is reported, with exit status 1. Messages
  are marked-up text in which the paths and the name of the format stand as they are given,
  so a tag in them is taken for one; a closing tag without an open one is among the causes
  for which a run breaks off. Halves of surrogate pairs can be reported, but neither printed
  nor written; a file for which that is found out is empty by then. A file that is open may
  also have no room for all its bytes. In front of all that is reported stand the notices about
  lines of the file of bindings that cannot be read.
-/
import FieldForest.Command.Arguments
import FieldForest.Declaration.File
import FieldForest.Forest.Build
import FieldForest.Forest.Outline
import FieldForest.Forest.Saving
import FieldForest.Settings.Basic

namespace FieldForest.Command

/-- Why not all bytes could be stored, and how many of them are. -/
structure Shortage where
  kept : Nat
  cause : SystemError

/-- What a run finds outside: variables, files, the terminal, and the room for its calls. -/
structure World where
  environment : List (Text × Text)
  read : Path → Except FileError (List UInt8)
  /-- What opening a file gives that is written to, which is empty then. -/
  write : Path → Except SystemError Spot
  /-- What storing bytes in it gives. -/
  store : Path → List UInt8 → Except Shortage Unit
  terminal : Terminal
  stack : Declaration.Stack
  /-- What a report says of faulty settings in the lines behind its first. -/
  details : List SettingFault → List Text

/-- The world of a folder of files, in which nothing ever gives out. -/
def World.ofFolder (environment : List (Text × Text)) (folder : Folder) : World where
  environment := environment
  read := folder.read
  write := folder.write
  store _ _ := .ok ()
  terminal := .plain
  stack := .usual
  details _ := []

/-- Why a run breaks off without a message of its own. -/
inductive Break where
  | markup (e : Markup.MarkupError)
  | tooManyDigits
  | exhausted
  | depthOutOfRange
  | unsaved
  | undecodableBindings
  | unencodable

/-- What a run leaves: its exit status, what it prints, what it reports, and the file that it
    writes. Log messages are not part of it. -/
structure Answer where
  exit : Nat
  output : Text
  errors : Text
  written : Option (Path × List UInt8)

/-- How a run ends. -/
inductive Ending where
  | help
  | usage
  | answered (a : Answer)
  | broken (b : Break) (written : Option (Path × List UInt8))

/-- What is reported. -/
inductive Trouble where
  | settings (faults : List SettingFault) (details : List Text)
  | file (e : FileReadError)
  | build (e : BuildError)
  | unwritten (path : Path) (e : SystemError)
  /-- A file that is open has not all its bytes. -/
  | unstored (e : SystemError)

/-- The words for the number of faults in the settings. -/
def faultCount (n : Nat) : Text :=
  Text.ofNat n ++ (if n = 1 then " validation error for Config" else " validation errors for Config")

def Trouble.message : Trouble → Text
  | .settings faults details => faultCount faults.length ++ details.flatMap (.char '\n' :: ·)
  | .file e => e.message
  | .build e => e.message
  | .unwritten path e => e.messageAt path
  | .unstored e => e.message

/-- The path of the file of bindings. -/
def bindingsPath : Path := .ofText ".env"

def World.surroundings (w : World) : Except (Break ⊕ Trouble) Settings.Surroundings :=
  match w.read bindingsPath with
  | .ok bytes =>
    match Utf8.decode bytes with
    | .ok t => .ok ⟨w.environment, some t⟩
    | .error _ => .error (.inl .undecodableBindings)
  | .error e =>
    if e.isAbsence then .ok ⟨w.environment, none⟩ else .error (.inr (.file (.unavailable bindingsPath e)))

/-- What is told about the surroundings, as far as they can be read. -/
def World.notices (w : World) : Text :=
  match w.surroundings with
  | .ok s => s.notices
  | .error _ => []

/-- The settings in force; a depth on the command line comes before all others. -/
def World.settings (w : World) (depth : Option Nesting.Limit) : Except (Break ⊕ Trouble) Settings :=
  match w.surroundings with
  | .error e => .error e
  | .ok s =>
    match Settings.load [] s with
    | .ok settings => .ok (settings.withDepth (depth.map fun limit => (limit.depth : Int)))
    | .error faults => .error (.inr (.settings faults (w.details faults)))

/-- The break of a run over a file that cannot be read, if that is not reported. -/
def breakOf? : FileReadError → Option Break
  | .undeclared (.tooManyDigits _) => some .tooManyDigits
  | .undeclared .exhausted => some .exhausted
  | _ => none

/-- The forest that the file at a path declares. -/
def World.forest (w : World) (path : Path) (settings : Settings) : Except (Break ⊕ Trouble) (List Field) :=
  match (Declaration.ofFile w.stack w.read path.toText).result with
  | .error e =>
    match breakOf? e with
    | some b => .error (.inl b)
    | none => .error (.inr (.file e))
  | .ok declaration =>
    match Nesting.Limit.ofInt settings.depth with
    | .error _ => .error (.inl .depthOutOfRange)
    | .ok limit => (declaration.toValue.buildForest limit).result.mapError (.inr ∘ .build)

/-- The end of a run that succeeds, with what it prints. -/
def succeeded (written : Option (Path × List UInt8)) (output : Text) : Ending :=
  if output.hasLoneSurrogate then .broken .unencodable written
  else .answered ⟨0, output, [], written⟩

/-- The end of a run that fails, with what it reports. -/
def failed (written : Option (Path × List UInt8)) (errors : Text) : Ending :=
  .answered ⟨1, [], Console.withoutLoneSurrogates errors, written⟩

section

variable (terminal : Terminal)

/-- The end of a run that succeeds and says so in one line of marked-up text. -/
def printed (written : Option (Path × List UInt8)) (line : Text) : Ending :=
  match Console.markedLine terminal line with
  | .ok output => succeeded written output
  | .error e => .broken (.markup e) written

/-- The end of a run that fails and says so in one line of marked-up text. -/
def refused (written : Option (Path × List UInt8)) (line : Text) : Ending :=
  match Console.markedLine terminal line with
  | .ok errors => failed written errors
  | .error e => .broken (.markup e) written

/-- The end of a run that reports a trouble behind `front`. -/
def reported (written : Option (Path × List UInt8)) (front : Text) (trouble : Trouble) : Ending :=
  refused terminal written (front ++ Markup.escape trouble.message)

def ended (front : Text) : Break ⊕ Trouble → Ending
  | .inl b => .broken b none
  | .inr trouble => reported terminal none front trouble

end

/-- The same with `notices` in front of the error messages. -/
def Ending.behind (notices : Text) : Ending → Ending
  | .answered a => .answered { a with errors := notices ++ a.errors }
  | e => e

/-- The formats in which a forest is shown. -/
inductive Format where
  | tree
  | text
  | json
deriving DecidableEq

def Format.name : Format → Text
  | .tree => "tree"
  | .text => "text"
  | .json => "json"

def Format.all : List Format := [.tree, .text, .json]

def Format.ofText? (t : Text) : Option Format := Format.all.find? (·.name == t)

/-- The text that shows a forest outside the tree view. -/
def shownText (format : Format) (title : Text) (forest : List Field) : Except Forest.SaveError Text :=
  match format with
  | .json => Forest.dump (some 2) forest
  | _ => .ok (Forest.listing title forest)

def titleOf (path : Path) : Text := "Schema: " ++ path.name

def errorFront : Text := "[red]Error:[/red] "

/-- The end of a run under the settings in force, behind the notices about where they come from. -/
def World.underSettings (w : World) (depth : Option Nesting.Limit) (front : Text) (next : Settings → Ending) : Ending :=
  let ending := match w.settings depth with
    | .error e => ended w.terminal front e
    | .ok settings => next settings
  ending.behind w.notices

/-- Writes a text to a file that is open, and says so. -/
def World.writeOpened (w : World) (target : Path) (t : Text) : Ending :=
  if t.hasLoneSurrogate then .broken .unencodable (some (target, []))
  else
    let bytes := Utf8.encode t
    match w.store target bytes with
    | .error s => reported w.terminal (some (target, bytes.take s.kept)) errorFront (.unstored s.cause)
    | .ok () => printed w.terminal (some (target, bytes)) ("[green]✓[/green] Schema written to " ++ target.toText)

/-- Shows a forest that is built. -/
def World.showForest (w : World) (path : Path) (format : Format) (output : Option Path) (forest : List Field) : Ending :=
  if format = .tree ∧ output.isNone then
    match (Outline.ofForest (Outline.styled "bold" (titleOf path)) forest).draw w.terminal with
    | .ok t => succeeded none t
    | .error e => .broken (.markup e) none
  else
    match shownText format (titleOf path) forest with
    | .error _ => .broken .unsaved none
    | .ok t =>
      match output with
      | none => succeeded none (Console.line t)
      | some target =>
        match w.write target with
        | .error e => reported w.terminal none errorFront (.unwritten target e)
        | .ok _ => w.writeOpened target t

def runShow (w : World) (path : Path) (format : Text) (output : Option Path) (depth : Option Nesting.Limit) : Ending :=
  match Format.ofText? format with
  | none =>
    refused w.terminal none (errorFront ++ "Unknown format '" ++ format ++ "'. Expected one of: " ++
      List.intercalate ", " (Format.all.map Format.name))
  | some format =>
    w.underSettings depth errorFront fun settings =>
      match w.forest path settings with
      | .error e => ended w.terminal errorFront e
      | .ok forest => w.showForest path format output forest

def runCheck (w : World) (path : Path) (depth : Option Nesting.Limit) : Ending :=
  let front : Text := "[red]✗[/red] " ++ path.toText ++ ": "
  w.underSettings depth front fun settings =>
    match w.forest path settings with
    | .error e => ended w.terminal front e
    | .ok forest =>
      printed w.terminal none ("[green]✓[/green] " ++ path.toText ++ ": " ++ Text.ofNat forest.length ++
        " top-level fields, " ++ Text.ofNat (Forest.size forest) ++ " total")

/-- The end of a run of the command line. -/
def run (w : World) (words : List Text) : Ending :=
  match Request.ofTexts? words with
  | none => .usage
  | some .help => .help
  | some (.showing path format output depth) => runShow w path format output depth
  | some (.checking path depth) => runCheck w path depth

end FieldForest.Command
