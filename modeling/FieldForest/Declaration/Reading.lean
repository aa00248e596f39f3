/-
  FieldForest.Declaration.Reading — declarations written in JSON.

  A statement is an object with one member, its keyword with the list of its arguments; the
  key `block` makes a block of a list of items. A third argument that is an object with the
  one key `do` is the body of a composite field. A list is a sequence of items. Statements,
  blocks and bodies are made of what is read as of any other parts, with the same checks.
  How deep items may stand is a parameter of the reader, and so is the room for its calls: where
  that gives out, while items are looked for or a part at fault is displayed, nothing is
  said about the text.
-/
import FieldForest.Json.Reader
import FieldForest.Declaration.Calls
import FieldForest.Declaration.Stack
import FieldForest.Nesting
import FieldForest.Trace

namespace FieldForest

inductive ReadError where
  | notJson (defect : Json.Defect) (place : Json.Place)
  /-- A whole number has more digits than are read. -/
  | tooManyDigits (count : Nat)
  /-- The declaration nests deeper than is ever accepted. -/
  | tooDeep
  | notStatement (data : Value)
  | blockNotList (data : Value)
  | argumentsNotList (data : Value)
  | bodyWithOptions (data : Value)
  /-- What is read makes no statement, block or body. -/
  | parts (faults : List Fault)
  /-- There is no room for another call. -/
  | exhausted

/-- The errors that say of a text that it is no declaration. The others are those of a number that
    is not read, of parts that are at fault, and of the stack. -/
def ReadError.isMalformed : ReadError → Bool
  | .tooManyDigits _ => false
  | .parts _ => false
  | .exhausted => false
  | _ => true

def ReadError.message : ReadError → Text
  | .notJson defect place => "Invalid JSON declaration (" ++ defect.message ++ ": " ++ place.message ++ ")"
  | .tooManyDigits count =>
    "Exceeds the limit (4300 digits) for integer string conversion: value has " ++ Text.ofNat count ++
      " digits; use sys.set_int_max_str_digits() to increase the limit"
  | .tooDeep => Nesting.exceededMessage Nesting.most
  | .notStatement data => Text.about "Expected a single-key statement object" data
  | .blockNotList data => Text.about "Block contents must be a list" data
  | .argumentsNotList data => Text.about "Statement arguments must be a list" data
  | .bodyWithOptions data => Text.about "A 'do' block cannot be combined with options" data
  | .parts _ => "The parts make no declaration"
  | .exhausted => "maximum recursion depth exceeded"

namespace Declaration

def blockKey : Text := "block"

def bodyKey : Text := "do"

section

variable (stack : Stack) (bound : Option Nat)

/-- A call for an item at nesting depth `depth` is made, with `opened` calls open. -/
def enter (opened depth : Nat) : Except ReadError Unit :=
  if isBeyond stack.calls opened then .error .exhausted
  else if isBeyond bound depth then .error .tooDeep
  else .ok ()

/-- What is said of a part at fault, if it can be displayed. -/
def refusal (opened : Nat) (data : Json) (refused : Value → ReadError) : ReadError :=
  if stack.canDisplay opened data then refused (.ofJson data) else .exhausted

mutual

/-- The item that a document describes at nesting depth `depth`, where none may stand beyond `bound`. -/
def itemWithin (opened depth : Nat) : Json → Except ReadError Item
  | .object [(key, .array elements)] => do
    enter stack bound opened depth
    if key = blockKey then
      let items ← itemsWithin (stack.inList opened) depth elements
      (Item.blockOf (.list (items.map .item))).mapError .parts
    else
      let args ← argsWithin opened depth key elements
      (Item.statementOf (some (.text key)) (some (.list args))).mapError .parts
  | .object [(key, value)] => do
    enter stack bound opened depth
    .error (refusal stack opened (.object [(key, value)]) (if key = blockKey then .blockNotList else .argumentsNotList))
  | data => do
    enter stack bound opened depth
    .error (refusal stack opened data .notStatement)
termination_by x => (sizeOf x, 0)

/-- The arguments of a statement at depth `depth`, its body among them. -/
def argsWithin (opened depth : Nat) (key : Text) : List Json → Except ReadError (List Value)
  | [name, type, .object [(k, body)]] =>
    if k = bodyKey then do
      let declaration ← ofJsonWithin (opened + 1) (depth + 1) body
      let body ← (bodyOf declaration.toValue).mapError .parts
      .ok [.ofJson name, .ofJson type, .nested body]
    else .ok [.ofJson name, .ofJson type, .ofJson (.object [(k, body)])]
  | [name, type, .object members] =>
    if members.any (·.1 == bodyKey) then
      .error (refusal stack opened (.object [(key, .array [name, type, .object members])]) .bodyWithOptions)
    else .ok [.ofJson name, .ofJson type, .ofJson (.object members)]
  | elements => .ok (Value.ofJson.ofElements elements)
termination_by elements => (sizeOf elements, 0)

def itemsWithin (opened depth : Nat) : List Json → Except ReadError (List Item)
  | [] => .ok []
  | x :: xs => do
    let item ← itemWithin opened depth x
    let items ← itemsWithin opened depth xs
    .ok (item :: items)
termination_by elements => (sizeOf elements, 0)

/-- The declaration that a document without repeated keys describes, its items at depth `depth`. -/
def ofJsonWithin (opened depth : Nat) : Json → Except ReadError Declaration
  | .array elements => (itemsWithin (stack.inList opened) depth elements).map .sequence
  | x => (itemWithin (opened + 1) depth x).map .single
termination_by x => (sizeOf x, 1)

end

end

/-- The declaration that a document describes, no item of which stands beyond the deepest level. -/
def ofJson (stack : Stack) (document : Json) : Except ReadError Declaration :=
  ofJsonWithin stack (some Nesting.most) 1 1 document.merged

/-- The declaration that a text writes. -/
def read (stack : Stack) (source : Text) : Except ReadError Declaration :=
  match Json.read stack.jsonLimits source with
  | .ok document => ofJson stack document
  | .error (.malformed defect rest) => .error (.notJson defect (.ofRest source rest))
  | .error .tooDeep => .error .tooDeep
  | .error (.tooManyDigits count) => .error (.tooManyDigits count)

/-- Reading with a report on success. -/
def readTraced (stack : Stack) (source : Text) : Traced ReadError Declaration := do
  let declaration ← Traced.ofExcept (read stack source)
  Traced.report (.declarationRead declaration.kind)
  return declaration

end Declaration

end FieldForest
