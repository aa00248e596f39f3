/-
  FieldForest.Value.Display — values as they are shown in messages and listings.

  A shown value says what kind it is: strings are quoted, a tuple of one has a comma, numbers
  that are not whole by nature keep a fraction or an exponent. The body of a composite
  statement shows only how many items it has, so messages stay short however deep a
  declaration nests.
-/
import FieldForest.Value.Basic
import FieldForest.Text.Quoted
import FieldForest.Number.Style

namespace FieldForest

namespace Text

def commaSeparated (parts : List Text) : Text := List.intercalate ", " parts

def bracketed (parts : List Text) : Text := "[" ++ commaSeparated parts ++ "]"

/-- What stands around a dictionary that cannot be changed. -/
def fixed (inside : Text) : Text := "mappingproxy(" ++ inside ++ ")"

def braced (parts : List Text) : Text := .char '{' :: commaSeparated parts ++ [.char '}']

/-- Parentheses around the parts, with a comma behind a part that is alone. -/
def parenthesized : List Text → Text
  | [part] => "(" ++ part ++ ",)"
  | parts => "(" ++ commaSeparated parts ++ ")"

def ofBool (b : Bool) : Text := if b then "True" else "False"

end Text

/-- A body shows the number of its items. -/
def Declaration.display (d : Declaration) : Text :=
  let size := d.items.length
  "NestedBlock(<" ++ Text.ofNat size ++ (if size = 1 then " item" else " items") ++ ">)"

mutual

def Value.display : Value → Text
  | .none => "None"
  | .bool b => Text.ofBool b
  | .int n => Text.ofInt n
  | .float x => x.displayed
  | .text t => t.quoted
  | .list elements => Text.bracketed (Value.displayAll elements)
  | .tuple elements => Text.parenthesized (Value.displayAll elements)
  | .dict entries => Text.braced (Value.displayEntries entries)
  | .fixed entries => Text.fixed (Text.braced (Value.displayEntries entries))
  | .item i => i.display
  | .nested body => body.display
  | .field f => f.display

def Value.displayAll : List Value → List Text
  | [] => []
  | x :: xs => x.display :: Value.displayAll xs

def Value.displayEntries : List (Value × Value) → List Text
  | [] => []
  | (k, v) :: rest => (k.display ++ ": " ++ v.display) :: Value.displayEntries rest

def Value.displayOptions : List (Text × Value) → List Text
  | [] => []
  | (k, v) :: rest => (k.quoted ++ ": " ++ v.display) :: Value.displayOptions rest

def Item.display : Item → Text
  | .statement keyword args =>
    "Statement(keyword=" ++ keyword.quoted ++ ", args=" ++ Text.bracketed (Value.displayAll args) ++ ")"
  | .block items => "Block(statements=" ++ Text.bracketed (Item.displayAll items) ++ ")"

def Item.displayAll : List Item → List Text
  | [] => []
  | i :: is => i.display :: Item.displayAll is

def Field.display : Field → Text
  | .mk id type leading required trailing fields =>
    let options := Value.displayOptions leading ++
      (Field.flagKey.quoted ++ ": " ++ Text.ofBool required) :: Value.displayOptions trailing
    "FieldNode(id=" ++ id.quoted ++ ", type=" ++ type.quoted ++ ", options=" ++
      Text.fixed (Text.braced options) ++ ", fields=" ++ Text.parenthesized (Field.displayAll fields) ++ ")"

def Field.displayAll : List Field → List Text
  | [] => []
  | f :: fs => f.display :: Field.displayAll fs

end

/-- A field's parts side by side, without the name of the kind. -/
def Field.displayParts (f : Field) : Text :=
  "id=" ++ f.id.quoted ++ " type=" ++ f.type.quoted ++ " options=" ++
    Text.fixed (Text.braced (Value.displayOptions f.options)) ++ " fields=" ++
    Text.parenthesized (Field.displayAll f.fields)

end FieldForest
