/-
  FieldForest.Main — the program at the command line.

  Looks up what the run can ask for, lets the run answer, and prints and writes the answer. What
  becomes of the file that is written is only known then, so a run that finds no room in it is
  answered once more.
-/
import FieldForest.Command.Run

namespace FieldForest.Program

open Command (Request Ending Shortage World)

def showText (t : Text) : String :=
  String.ofList (t.map fun
    | .char c => c
    | .loneSurrogate _ => '?')

/-- The error of the system behind one of a program. -/
def systemError : IO.Error → SystemError
  | .alreadyExists _ code details | .invalidArgument _ code details | .permissionDenied _ code details
  | .resourceExhausted _ code details | .inappropriateType _ code details | .noSuchThing _ code details
  | .interrupted _ code details | .noFileOrDirectory _ code details | .otherError code details
  | .resourceBusy code details | .resourceVanished code details | .unsupportedOperation code details
  | .hardwareFault code details | .unsatisfiedConstraints code details | .illegalOperation code details
  | .protocolError code details | .timeExpired code details => ⟨code.toNat, details⟩
  | .unexpectedEof => ⟨5, "Input/output error"⟩
  | .userError message => ⟨5, message⟩

def attempt {α : Type} (action : IO α) : IO (Except SystemError α) := do
  try
    return .ok (← action)
  catch e => return .error (systemError e)

def bytesAt (p : Path) : IO (Except FileError (List UInt8)) := do
  let name := showText p.toText
  match ← attempt (IO.FS.Handle.mk name .read) with
  | .error e => return .error (.unopened e)
  | .ok _ =>
    let bytes ← attempt do return (← IO.FS.readBinFile name).toList
    return bytes.mapError fun e => if e.code = SystemError.isDirectory.code then .unopened e else .unread e

/-- The variables of the process. -/
def environment : IO (List (Text × Text)) := do
  match ← bytesAt (.ofText "/proc/self/environ") with
  | .error _ => return []
  | .ok bytes =>
    let entries := (bytes.splitOn 0).filterMap fun entry => (Utf8.decode entry).toOption
    return entries.map fun entry =>
      let (name, value) := entry.span (· != .char '=')
      (name, value.drop 1)

/-- The path of the file that a request reads, if it reads one. -/
def pathOf? : Request → Option Path
  | .help => none
  | .showing path _ _ _ => some path
  | .checking path _ => some path

def writtenBy : Ending → Option (Path × List UInt8)
  | .answered a => a.written
  | .broken _ written => written
  | .help => none
  | .usage => none

/-- What writing a file gives: that it cannot be opened, or what storing bytes in it gives. -/
def store (path : Path) (bytes : List UInt8) : IO (Except SystemError (Except Shortage Unit)) := do
  let name := showText path.toText
  match ← attempt (IO.FS.Handle.mk name .write) with
  | .error e => return .error e
  | .ok handle =>
    match ← attempt do handle.write ⟨bytes.toArray⟩; handle.flush with
    | .ok () => return .ok (.ok ())
    | .error e =>
      let kept ← attempt (IO.FS.readBinFile name)
      return .ok (.error ⟨(kept.toOption.map (·.size)).getD 0, e⟩)

/-- Prints how a run ends, and gives its exit status. -/
def conclude : Ending → IO UInt32
  | .help => return 0
  | .usage => return 2
  | .broken _ _ => return 1
  | .answered a => do
    IO.print (showText a.output)
    IO.eprint (showText a.errors)
    return a.exit.toUInt32

end FieldForest.Program

open FieldForest Program Command in
def main (args : List String) : IO UInt32 := do
  let words := args.map Text.ofString
  let bindings ← bytesAt bindingsPath
  let environment ← environment
  let path? := (Request.ofTexts? words).bind Program.pathOf?
  let bytes ← bytesAt (path?.getD bindingsPath)
  let world : World := {
    environment
    read := fun p => if p = bindingsPath then bindings else bytes
    write := fun _ => .ok .beside
    store := fun _ _ => .ok ()
    terminal := .plain
    stack := .usual
    details := fun _ => [] }
  let ending := run world words
  match writtenBy ending with
  | none => conclude ending
  | some (target, bytes) =>
    match ← Program.store target bytes with
    | .error e => conclude (run { world with write := fun _ => .error e } words)
    | .ok outcome => conclude (run { world with store := fun _ _ => outcome } words)
