/-
  FieldForest.File.Folder — what opening a path in a folder of files gives.

  A folder lists its files, those in folders below it included; a folder below it is there
  because a file is in it. Paths may lead out of it: to the folders above it, of which nothing
  is known but that they are there, or from the root of the system to folders that are always
  there and to the file that swallows everything and is always empty. No other file is known.
-/
import FieldForest.File.Path
import FieldForest.Text.Quoted

namespace FieldForest

/-- An error that the system reports: its number, and what it says. -/
structure SystemError where
  code : Nat
  reason : Text
deriving DecidableEq

namespace SystemError

def missing : SystemError := ⟨2, "No such file or directory"⟩

def notDirectory : SystemError := ⟨20, "Not a directory"⟩

def isDirectory : SystemError := ⟨21, "Is a directory"⟩

def nameTooLong : SystemError := ⟨36, "File name too long"⟩

def message (e : SystemError) : Text := "[Errno " ++ Text.ofNat e.code ++ "] " ++ e.reason

/-- The words for an error about a path. -/
def messageAt (path : Path) (e : SystemError) : Text := e.message ++ ": " ++ path.toText.quoted

end SystemError

/-- Why there are no bytes of a file. -/
inductive FileError where
  | unopened (e : SystemError)
  /-- The file is open, but not all of it can be read. -/
  | unread (e : SystemError)
deriving DecidableEq

def FileError.message (path : Path) : FileError → Text
  | .unopened e => e.messageAt path
  | .unread e => e.message

/-- The numbers of the errors that a path has where no file is. -/
def FileError.absences : List Nat := [2, 9, 20, 21, 40]

/-- Whether an error says that there is no file. -/
def FileError.isAbsence : FileError → Bool
  | .unopened e => absences.contains e.code
  | .unread _ => false

/-- The files of a folder, each under the parts of its path. -/
abbrev Folder := List (List Text × List UInt8)

/-- Where a path leads. -/
inductive Spot where
  /-- Into the folder, to these parts. -/
  | inside (parts : List Text)
  /-- From the root of the system, to these parts. -/
  | fromRoot (parts : List Text)
  /-- To a folder above the folder. -/
  | above
  /-- Into a folder above the folder, to what is not known. -/
  | beside

/-- What is found at a spot. -/
inductive Found where
  | file (bytes : List UInt8)
  | directory
  | nothing

namespace Spot

/-- The folders of a system that are always there. -/
def systemFolders : List (List Text) :=
  [] :: ["bin", "boot", "dev", "etc", "home", "lib", "media", "mnt", "opt", "proc", "root", "run", "sbin",
    "srv", "sys", "tmp", "usr", "var"].map fun (name : String) => [(name : Text)]

/-- The file that is always empty, whatever is written to it. -/
def emptyFile : List Text := ["dev", "null"]

/-- The spot of a part in the folder at this spot. -/
def enter (part : Text) : Spot → Spot
  | .inside [] => if part = ".." then .above else .inside [part]
  | .inside parts => .inside (if part = ".." then parts.dropLast else parts ++ [part])
  | .fromRoot parts => .fromRoot (if part = ".." then parts.dropLast else parts ++ [part])
  | .above => if part = ".." then .above else .beside
  | .beside => .beside

end Spot

namespace Folder

/-- The contents of the file at these parts. -/
def file? (folder : Folder) (parts : List Text) : Option (List UInt8) :=
  (folder.find? (·.1 == parts)).map (·.2)

/-- Some file is below these parts, or they are the folder itself. -/
def isFolder (folder : Folder) (parts : List Text) : Bool :=
  parts.isEmpty || folder.any fun (p, _) => parts.isPrefixOf p && parts != p

def look (folder : Folder) : Spot → Found
  | .inside parts =>
    match folder.file? parts with
    | some bytes => .file bytes
    | none => if folder.isFolder parts then .directory else .nothing
  | .fromRoot parts =>
    if parts = Spot.emptyFile then .file []
    else if Spot.systemFolders.contains parts then .directory
    else .nothing
  | .above => .directory
  | .beside => .nothing

/-- The most bytes that a part may have. -/
def mostPartBytes : Nat := 255

/-- The most bytes that a path may have. -/
def mostPathBytes : Nat := 4095

/-- The spot behind further parts; all in front of the last have to be folders. -/
def follow (folder : Folder) (spot : Spot) : List Text → Except SystemError Spot
  | [] => .ok spot
  | part :: others =>
    match folder.look spot with
    | .directory =>
      if mostPartBytes < Path.byteCount part then .error .nameTooLong
      else follow folder (spot.enter part) others
    | .file _ => .error .notDirectory
    | .nothing => .error .missing

/-- The spot that a path leads to. -/
def locate (folder : Folder) (p : Path) : Except SystemError Spot :=
  if mostPathBytes < Path.byteCount p.toText then .error .nameTooLong
  else folder.follow (if p.root.isEmpty then .inside [] else .fromRoot []) p.parts

/-- The bytes of the file at a path. -/
def read (folder : Folder) (p : Path) : Except FileError (List UInt8) := do
  match folder.look (← (folder.locate p).mapError .unopened) with
  | .file bytes => .ok bytes
  | .directory => .error (.unopened .isDirectory)
  | .nothing => .error (.unopened .missing)

/-- The spot at which a file is written that goes to a path: over one that is there, or into a
    folder. -/
def write (folder : Folder) (p : Path) : Except SystemError Spot := do
  let spot ← folder.locate p
  match folder.look spot with
  | .directory => .error .isDirectory
  | _ => .ok spot

end Folder

end FieldForest
