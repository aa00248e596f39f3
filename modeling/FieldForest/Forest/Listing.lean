/-
  FieldForest.Forest.Listing — a forest as rows, as aligned lines, and as a number.

  Each field has one row and stands in front of the fields below it, whose names are indented
  by two spaces more. A listing has the rows in columns under a title.
-/
import FieldForest.Value.Display
import FieldForest.Text.Blank

namespace FieldForest

/-- What is shown of a field: its name with the indentation, its type, whether it is required,
    and its other options. -/
structure Row where
  name : Text
  type : Text
  flag : Text
  options : Text

namespace Field

/-- The word for the flag. -/
def flagWord (required : Bool) : Text := if required then "required" else "optional"

/-- The options other than the flag, as far as a reader needs them. -/
def settingsText (f : Field) : Text :=
  Text.commaSeparated (f.settings.map fun (k, v) => k ++ "=" ++ v.display)

/-- The row of a field that has `depth` fields above it. -/
def row (depth : Nat) (f : Field) : Row where
  name := List.replicate (2 * depth) (.char ' ') ++ f.id
  type := f.type
  flag := flagWord f.required
  options := f.settingsText

end Field

namespace Forest

mutual

/-- The row of a field and those of the fields below it. -/
def fieldRows (depth : Nat) : Field → List Row
  | .mk id type leading required trailing fields =>
    Field.row depth (.mk id type leading required trailing fields) :: rowsAt (depth + 1) fields

/-- The rows of fields that have `depth` fields above them. -/
def rowsAt (depth : Nat) : List Field → List Row
  | [] => []
  | f :: fs => fieldRows depth f ++ rowsAt depth fs

end

def rows (forest : List Field) : List Row := rowsAt 0 forest

/-- A row in columns, without blanks at the end. -/
def Row.line (r : Row) : Text :=
  Text.trimEnd (r.name.padEnd 30 ++ " " ++ r.type.padEnd 20 ++ " " ++ r.flag.padEnd 10 ++ " " ++ r.options)

/-- The title, a ruler, an empty line, and a line for each row. -/
def listing (title : Text) (forest : List Field) : Text :=
  List.intercalate "\n" (title :: List.replicate 80 (.char '=') :: [] :: (rows forest).map Row.line)

mutual

/-- A field and all fields below it, counted. -/
def fieldSize : Field → Nat
  | .mk _ _ _ _ _ fields => 1 + size fields

/-- All fields of a forest, counted. -/
def size : List Field → Nat
  | [] => 0
  | f :: fs => fieldSize f + size fs

end

end Forest

end FieldForest
