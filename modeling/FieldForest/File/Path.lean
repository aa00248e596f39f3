/-
  FieldForest.File.Path — the paths of files.

  A path is the slashes in front and the parts behind them. Empty parts and single points
  are dropped, so that a path has one spelling; without parts it is the folder itself. Files
  are named by bytes: characters stand for their bytes in UTF-8, and the upper half of the low
  surrogates stands for the bytes that are no text.
-/
import FieldForest.Text.Basic

namespace FieldForest

structure Path where
  root : Text
  parts : List Text
deriving DecidableEq

/-- Why a path names no file. -/
inductive PathFault where
  /-- Half a surrogate pair stands for no byte. -/
  | unnameable
  | nul

namespace Path

/-- Exactly two slashes in front are kept as two, any other number as one. -/
def rootOf : Text → Text
  | .char '/' :: .char '/' :: .char '/' :: _ => "/"
  | .char '/' :: .char '/' :: _ => "//"
  | .char '/' :: _ => "/"
  | _ => []

def ofText (t : Text) : Path where
  root := rootOf t
  parts := (t.splitOn (.char '/')).filter fun part => part != [] && part != "."

def toText (p : Path) : Text :=
  match p.root, p.parts with
  | [], [] => "."
  | root, parts => root ++ List.intercalate "/" parts

/-- The last part; a path without parts has an empty name. -/
def name (p : Path) : Text := p.parts.getLast?.getD []

/-- How many bytes a code point stands for; a surrogate that stands for none has no number. -/
def bytesOf? : CodePoint → Option Nat
  | .char c => some c.utf8Size
  | .loneSurrogate n => if 0x480 ≤ n.val ∧ n.val < 0x500 then some 1 else none

/-- The number of bytes that a text stands for in a path. -/
def byteCount (t : Text) : Nat := t.foldl (fun n c => n + (bytesOf? c).getD 0) 0

/-- What keeps a path from naming a file. -/
def fault? (p : Path) : Option PathFault :=
  if p.toText.any fun c => (bytesOf? c).isNone then some .unnameable
  else if .char '\x00' ∈ p.toText then some .nul
  else none

end Path

end FieldForest
