/-
  FieldForest.Forest.Outline — a forest as a tree of labels, and the tree drawn with lines.

  A label is marked-up text: the field's id and type, the word for its flag and its other
  options, each in a style. What the field itself contributes is escaped.
-/
import FieldForest.Forest.Listing
import FieldForest.Console

namespace FieldForest

inductive Outline where
  | mk (label : Text) (children : List Outline)

namespace Outline

def label : Outline → Text
  | .mk label _ => label

def children : Outline → List Outline
  | .mk _ children => children

/-- A text between the tags of a style. -/
def styled (style : Text) (t : Text) : Text := "[" ++ style ++ "]" ++ t ++ "[/" ++ style ++ "]"

def flagMarkup (required : Bool) : Text :=
  styled (if required then "green" else "yellow") (Field.flagWord required)

/-- The options in parentheses behind the rest of a label, if there are any. -/
def settingsMarkup (f : Field) : Text :=
  if f.settings.isEmpty then [] else " " ++ styled "dim" ("(" ++ Markup.escape f.settingsText ++ ")")

def labelOf (f : Field) : Text :=
  styled "cyan" (Markup.escape f.id) ++ ": " ++ styled "magenta" (Markup.escape f.type) ++ " " ++
    flagMarkup f.required ++ settingsMarkup f

mutual

def ofField : Field → Outline
  | .mk id type leading required trailing fields =>
    .mk (labelOf (.mk id type leading required trailing fields)) (ofFields fields)

def ofFields : List Field → List Outline
  | [] => []
  | f :: fs => ofField f :: ofFields fs

end

/-- The outline of a forest under a title. -/
def ofForest (title : Text) (forest : List Field) : Outline := .mk title (ofFields forest)

/-! ## Drawing -/

section

variable (terminal : Terminal)

/-- The lines of a label, the first one behind `first` and the others behind `others`, which take as much room. -/
def labelLines (first others label : Text) : Except Markup.MarkupError (List Text) :=
  (Console.shownMarked terminal label).map fun t =>
    match (t.splitOn (.char '\n')).flatMap (terminal.lines (terminal.columns - first.length)) with
    | [] => []
    | line :: lines => (first ++ line) :: lines.map (others ++ ·)

mutual

/-- The lines of an outline, the first one behind `first` and the others behind `others`. -/
def drawAt (first others : Text) : Outline → Except Markup.MarkupError (List Text)
  | .mk label children => do
    let own ← labelLines terminal first others label
    let below ← drawChildren others children
    return own ++ below

/-- The lines of outlines that hang on one line, all behind `front`. -/
def drawChildren (front : Text) : List Outline → Except Markup.MarkupError (List Text)
  | [] => return []
  | [last] => drawAt (front ++ "└── ") (front ++ "    ") last
  | child :: rest => do
    let own ← drawAt (front ++ "├── ") (front ++ "│   ") child
    let below ← drawChildren front rest
    return own ++ below

end

/-- An outline drawn with lines, a line of text for each. -/
def draw (o : Outline) : Except Markup.MarkupError Text :=
  (drawAt terminal [] [] o).map fun lines => lines.flatMap (· ++ "\n")

end

end Outline

end FieldForest
