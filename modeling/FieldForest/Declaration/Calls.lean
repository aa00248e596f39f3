/-
  FieldForest.Declaration.Calls — declarations written as calls.

  A field is declared with a keyword, a name and a type, and behind them either options or a
  body of further declarations, not both.
-/
import FieldForest.Declaration.Checked
import FieldForest.Value.Entries

namespace FieldForest

inductive Keyword where
  | requires
  | optional
deriving DecidableEq

namespace Keyword

def name : Keyword → Text
  | .requires => "requires"
  | .optional => "optional"

def ofText? (t : Text) : Option Keyword :=
  if t = requires.name then some .requires else if t = optional.name then some .optional else none

end Keyword

/-- What is wrong with a call. -/
inductive CallError where
  /-- Both options and a body are given; the statement holds both as they are. -/
  | optionsAndBody (statement : Item)
  | options (e : Value.EntriesError)
  | body (faults : List Fault)

/-- A message about something, which is shown behind it unless it is nothing. -/
def Text.about (message : Text) : Value → Text
  | .none => message
  | v => message ++ ": " ++ v.display

def CallError.message : CallError → Text
  | .optionsAndBody statement =>
    Text.about "A field takes either options or a nested block, not both" (.item statement)
  | .options e => e.message
  | .body _ => "The body is no declaration"

/-- The statement for a field; what is not given is `none`. -/
def Item.declare (keyword : Keyword) (name type options body : Value) : Except CallError Item :=
  match options, body with
  | .none, .none => .ok (.statement keyword.name [name, type])
  | .none, body =>
    match Declaration.bodyOf body with
    | .ok body => .ok (.statement keyword.name [name, type, .nested body])
    | .error faults => .error (.body faults)
  | options, .none =>
    match options.toEntries with
    | .ok entries => .ok (.statement keyword.name [name, type, .dict entries])
    | .error e => .error (.options e)
  | options, body => .error (.optionsAndBody (.statement keyword.name [name, type, options, body]))

end FieldForest
