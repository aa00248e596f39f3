/-
  FieldForest.Command.Arguments — the words of a command line.

  The first word names a command. Behind it come the command's options and one path, in any
  order. The value of an option is the next word, or what follows the equals sign or the
  letter within its own word; of an option that comes twice the last value counts. Two
  dashes end the options. Help can be asked for in front of the command's name and behind it,
  and is given whatever else is missing, if only all options are known and have their values.
  A line that is none of this asks for nothing.
-/
import FieldForest.File.Path
import FieldForest.Nesting
import FieldForest.Number.Integer

namespace FieldForest.Command

/-- What a command line asks for. -/
inductive Request where
  | help
  | showing (path : Path) (format : Text) (output : Option Path) (depth : Option Nesting.Limit)
  | checking (path : Path) (depth : Option Nesting.Limit)

inductive Flag where
  | format
  | output
  | maxDepth
deriving DecidableEq

def Flag.long : Flag → Text
  | .format => "--format"
  | .output => "--output"
  | .maxDepth => "--max-depth"

def Flag.short? : Flag → Option Char
  | .format => some 'f'
  | .output => some 'o'
  | .maxDepth => none

/-- How a word of a command line is taken. -/
inductive Word where
  | argument (t : Text)
  | optionWith (flag : Flag) (value : Text)
  | optionBefore (flag : Flag)
  | help
  | unknown

def helpWord : Text := "--help"

/-- A word where the options `flags` are allowed. -/
def Word.ofText (flags : List Flag) (t : Text) : Word :=
  match t with
  | .char '-' :: .char '-' :: _ =>
    let (name, value) := t.span (· != .char '=')
    match flags.find? (·.long == name), value with
    | some flag, [] => .optionBefore flag
    | some flag, _ :: value => .optionWith flag value
    | none, _ => if t = helpWord then .help else .unknown
  | .char '-' :: .char letter :: value =>
    match flags.find? (·.short? == some letter) with
    | some flag => if value.isEmpty then .optionBefore flag else .optionWith flag value
    | none => .unknown
  | .char '-' :: _ :: _ => .unknown
  | t => .argument t

/-- The options with their values, the arguments, and whether help is asked for. -/
structure Words where
  options : List (Flag × Text)
  arguments : List Text
  help : Bool

def Words.ofTexts? (flags : List Flag) : List Text → Option Words
  | [] => some ⟨[], [], false⟩
  | t :: rest =>
    if t = ("--" : Text) then some ⟨[], rest, false⟩
    else match Word.ofText flags t, rest with
      | .argument t, rest => (ofTexts? flags rest).map fun w => { w with arguments := t :: w.arguments }
      | .optionWith flag value, rest =>
        (ofTexts? flags rest).map fun w => { w with options := (flag, value) :: w.options }
      | .optionBefore flag, value :: rest =>
        (ofTexts? flags rest).map fun w => { w with options := (flag, value) :: w.options }
      | .optionBefore _, [] => none
      | .help, rest => (ofTexts? flags rest).map fun w => { w with help := true }
      | .unknown, _ => none

/-- The value that an option has in the end. -/
def Words.value? (w : Words) (flag : Flag) : Option Text := (w.options.reverse.lookup flag)

/-- The depth that is asked for, if one is, read as that of the settings is: 5.0 is five, and digits of other
    scripts are none. It is `none` if it is no depth that can be. -/
def Words.depth? (w : Words) : Option (Option Nesting.Limit) :=
  match w.value? .maxDepth with
  | none => some none
  | some t =>
    match (Integer.ofText t).toOption.map Nesting.Limit.ofInt with
    | some (.ok limit) => some (some limit)
    | _ => none

/-- The path that a word writes, if a file can be there. -/
def pathOf? (t : Text) : Option Path :=
  let path := Path.ofText t
  if path.fault?.isSome then none else some path

/-- The one path among the words. -/
def Words.path? (w : Words) : Option Path :=
  match w.arguments with
  | [t] => pathOf? t
  | _ => none

/-- The path to write to, if one is asked for; `none` if no file can be there. -/
def Words.output? (w : Words) : Option (Option Path) :=
  match w.value? .output with
  | none => some none
  | some t => (pathOf? t).map some

/-- What words ask for: help, or else what `asked` makes of them. -/
def Words.request? (w : Words) (asked : Words → Option Request) : Option Request :=
  if w.help then some .help else asked w

/-- What the words behind a command's name ask for. -/
def Request.ofCommand? (name : Text) (texts : List Text) : Option Request :=
  if name = ("show" : Text) then do
    let w ← Words.ofTexts? [.format, .output, .maxDepth] texts
    w.request? fun w => do
      some (.showing (← w.path?) ((w.value? .format).getD "tree") (← w.output?) (← w.depth?))
  else if name = ("check" : Text) then do
    let w ← Words.ofTexts? [.maxDepth] texts
    w.request? fun w => do some (.checking (← w.path?) (← w.depth?))
  else none

/-- What is asked for where help is, in front of a command's name: no other option may stand there. -/
def Request.ofHelp? : List Text → Option Request
  | [] => some .help
  | t :: rest =>
    if t = ("--" : Text) then some .help
    else match Word.ofText [] t with
      | .help => ofHelp? rest
      | .argument _ => some .help
      | _ => none

/-- What a whole command line asks for. -/
def Request.ofTexts? : List Text → Option Request
  | [] => none
  | name :: rest =>
    if name = ("--" : Text) then
      match rest with
      | [] => none
      | name :: rest => ofCommand? name rest
    else if name = helpWord then ofHelp? rest
    else ofCommand? name rest

end FieldForest.Command
