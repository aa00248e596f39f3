/-
  FieldForest.Json.Writer — documents written as JSON text.

  Compact text has no blanks outside strings. Indented text has each element and member on a
  line of its own, one step further in than the bracket around it; empty arrays and objects
  stay closed up. A number that is infinite or none is written as `null`.
-/
import FieldForest.Json.Basic
import FieldForest.Number.Style

namespace FieldForest.Json

/-- A code point inside a string. -/
def escaped : CodePoint → Text
  | .char '"' => "\\\""
  | .char '\\' => "\\\\"
  | .char '\x08' => "\\b"
  | .char '\x0C' => "\\f"
  | .char '\n' => "\\n"
  | .char '\r' => "\\r"
  | .char '\t' => "\\t"
  | c => if c.toNat < 0x20 then "\\u" ++ Text.ofHex 4 c.toNat else [c]

def writeString (t : Text) : Text := .char '"' :: t.flatMap escaped ++ [.char '"']

def writeFloat : Binary64 → Text
  | .finite negative size => DecimalStyle.saved.writeFinite negative size
  | _ => "null"

/-- A new line indented by `level` steps; nothing in compact text. -/
def newline (indent : Option Nat) (level : Nat) : Text :=
  match indent with
  | none => []
  | some width => .char '\n' :: List.replicate (width * level) (.char ' ')

def colon (indent : Option Nat) : Text := if indent.isSome then ": " else ":"

mutual

/-- The text of a document whose brackets stand at indentation `level`. -/
def writeAt (indent : Option Nat) (level : Nat) : Json → Text
  | .null => "null"
  | .bool b => if b then "true" else "false"
  | .int n => Text.ofInt n
  | .float x => writeFloat x
  | .text t => writeString t
  | .array [] => "[]"
  | .array (x :: xs) =>
    "[" ++ newline indent (level + 1) ++ writeAt indent (level + 1) x ++
      writeElements indent (level + 1) xs ++ newline indent level ++ "]"
  | .object [] => [.char '{', .char '}']
  | .object ((key, x) :: rest) =>
    .char '{' :: newline indent (level + 1) ++ writeString key ++ colon indent ++
      writeAt indent (level + 1) x ++ writeMembers indent (level + 1) rest ++ newline indent level ++
      [.char '}']

/-- The elements behind the first, each with the comma in front of it. -/
def writeElements (indent : Option Nat) (level : Nat) : List Json → Text
  | [] => []
  | x :: xs => "," ++ newline indent level ++ writeAt indent level x ++ writeElements indent level xs

/-- The members behind the first, each with the comma in front of it. -/
def writeMembers (indent : Option Nat) (level : Nat) : List (Text × Json) → Text
  | [] => []
  | (key, x) :: rest =>
    "," ++ newline indent level ++ writeString key ++ colon indent ++ writeAt indent level x ++
      writeMembers indent level rest

end

/-- The text of a document: compact, or indented by `indent` spaces for each level. -/
def write (indent : Option Nat) (document : Json) : Text := writeAt indent 0 document

end FieldForest.Json
