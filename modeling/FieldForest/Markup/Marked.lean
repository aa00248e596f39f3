/-
  FieldForest.Markup.Marked — marked-up text read: what it leaves, and which stretches of that
  have a style.

  Tags leave nothing behind, but they have to match: a closing tag closes the last open tag
  of its name, or the last open tag if it has no name, and there has to be one. Names that
  mean the same style are one name. Behind an equals sign a tag has parameters. A tag whose
  name begins with an at sign names an action, and its parameters write the values that the
  action is given: they are looked at when the tag is closed. All other tags give a style to
  what stands between them and the tag that closes them, or the end of the text.
-/
import FieldForest.Markup.Basic
import FieldForest.Markup.Literal
import FieldForest.Markup.Style
import FieldForest.Text.Word

namespace FieldForest.Markup

/-- Why a text cannot be read as marked-up text. -/
inductive MarkupError where
  /-- A closing tag has nothing to close. -/
  | unopened (inside : Text)
  /-- The parameters of an action write no values. -/
  | badParameters (parameters : Text)
  /-- A style has a colour with a share that cannot be read. -/
  | unreadableShare

/-- A stretch of text that has a style. -/
structure Stretch where
  style : Text
  covered : Text

/-- A text, and the stretches of it that have a style. -/
structure Marked where
  text : Text
  stretches : List Stretch

/-- A tag that is open; `start` code points stand in front of it. -/
structure OpenTag where
  name : Text
  parameters : Option Text
  start : Nat

/-- The parts of a tag in front of the equals sign and behind it. -/
def tagParts (inside : Text) : Text × Option Text :=
  let (name, rest) := inside.span (· ≠ .char '=')
  (name, rest.tail?)

/-- The description of the style that a tag gives. -/
def OpenTag.style (t : OpenTag) : Text :=
  match t.parameters with
  | none => t.name
  | some parameters => t.name ++ " " ++ parameters

def OpenTag.isAction (t : OpenTag) : Bool := t.name.head? == some (.char '@')

/-- The values in the parameters of an action: what stands in parentheses behind its name, or all
    parameters if they are of another form. -/
def valuesIn (parameters : Text) : Text :=
  let (_, rest) := parameters.span fun c => Text.isWordPoint c || c = .char '.'
  match rest with
  | [] => "()"
  | .char '(' :: inside =>
    if inside.getLast? = some (.char ')') ∧ .char '\n' ∉ inside then rest else parameters
  | _ => parameters

/-- Whether the parameters of a tag that is closed write values, if it names an action. -/
def OpenTag.isSound (t : OpenTag) : Bool :=
  match t.parameters with
  | none => true
  | some parameters => !t.isAction || parameters.isEmpty || Literal.isValue (valuesIn (Text.trim parameters))

/-- The open tags without the last one of this name, and that one; they are listed from the last on. -/
def closeNamed (name : Text) : List OpenTag → Option (OpenTag × List OpenTag)
  | [] => none
  | t :: rest =>
    if t.name = name then some (t, rest) else (closeNamed name rest).map fun (found, rest) => (found, t :: rest)

/-- The tag that a closing tag closes, and the tags that stay open. -/
def close (name : Text) (opened : List OpenTag) : Except MarkupError (OpenTag × List OpenTag) :=
  let named : Except MarkupError (Option (OpenTag × List OpenTag)) :=
    if (Text.trim name).isEmpty then
      .ok (match opened with
        | [] => none
        | t :: rest => some (t, rest))
    else match Style.canonical (Text.trim name) with
      | .ok name => .ok (closeNamed name opened)
      | .error _ => .error .unreadableShare
  match named with
  | .ok (some (t, rest)) => if t.isSound then .ok (t, rest) else .error (.badParameters t.style)
  | .ok none => .error (.unopened name)
  | .error e => .error e

/-- How far a text has been read: what it leaves, read backwards, the stretches that are closed,
    and the tags that are open. -/
structure Progress where
  read : Text
  stretches : List Stretch
  opened : List OpenTag

namespace Progress

def put (p : Progress) (t : Text) : Progress := { p with read := t.reverse ++ p.read }

/-- The stretch from a tag up to here. -/
def stretch (p : Progress) (t : OpenTag) : Stretch := ⟨t.style, (p.read.take (p.read.length - t.start)).reverse⟩

/-- One more tag is read. -/
def tag (p : Progress) (inside : Text) : Except MarkupError Progress :=
  match tagParts inside with
  | (.char '/' :: name, _) =>
    (close name p.opened).map fun (t, opened) =>
      { p with opened, stretches := if t.isAction then p.stretches else p.stretch t :: p.stretches }
  | (name, parameters) =>
    match Style.canonical name with
    | .ok name => .ok { p with opened := ⟨name, parameters, p.read.length⟩ :: p.opened }
    | .error _ => .error .unreadableShare

/-- One more token is read. -/
def token (p : Progress) : Token → Except MarkupError Progress
  | .plain c => .ok (p.put [c])
  | .bracket n => .ok (p.put (List.replicate (n - 1) (.char '\\') ++ [.char '[']))
  | .tag n inside =>
    let p := p.put (List.replicate (n / 2) (.char '\\'))
    if n % 2 = 1 then .ok (p.put (tagText inside)) else p.tag inside

/-- What is read when the text ends. -/
def marked (p : Progress) : Marked := ⟨p.read.reverse, p.opened.map p.stretch ++ p.stretches⟩

end Progress

/-- A marked-up text read. -/
def read (s : Text) : Except MarkupError Marked :=
  ((tokens s).foldlM Progress.token ⟨[], [], []⟩).map Progress.marked

/-- The text that a marked-up text leaves. -/
def plain (s : Text) : Except MarkupError Text := (read s).map (·.text)

end FieldForest.Markup
