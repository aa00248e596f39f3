/-
  FieldForest.Declaration.File — declarations in files.

  A file holds UTF-8 text, in which every kind of line ending counts as a line feed.
-/
import FieldForest.Declaration.Reading
import FieldForest.File.Folder
import FieldForest.Text.Utf8

namespace FieldForest

inductive FileReadError where
  | unnamed (fault : PathFault)
  | unavailable (path : Path) (e : FileError)
  /-- The file is not text; `spelling` is its path as the caller wrote it. -/
  | undecodable (spelling : Text) (fault : Utf8.Fault)
  | undeclared (e : ReadError)

def FileReadError.message : FileReadError → Text
  | .unnamed .nul => "embedded null byte"
  | .unnamed .unnameable => "surrogates not allowed"
  | .unavailable path e => e.message path
  | .undecodable spelling fault =>
    "Declaration file " ++ spelling ++ " is not valid UTF-8 (" ++ fault.message ++ ")"
  | .undeclared e => e.message

namespace Declaration

/-- The text of the bytes of a file. -/
def textOfBytes (bytes : List UInt8) : Except Utf8.Fault Text := (Utf8.decode bytes).map Text.unifyNewlines

/-- The declaration in the file at the path spelled `spelling`, where opening is `access`. -/
def ofFile (stack : Stack) (access : Path → Except FileError (List UInt8)) (spelling : Text) :
    Traced FileReadError Declaration := do
  Traced.report (.opened spelling)
  let path := Path.ofText spelling
  match path.fault? with
  | some fault => Traced.fail (.unnamed fault)
  | none => pure ()
  let bytes ← Traced.ofExcept ((access path).mapError (.unavailable path))
  let text ← Traced.ofExcept ((textOfBytes bytes).mapError (.undecodable spelling))
  (readTraced stack text).mapError .undeclared

end Declaration

end FieldForest
