/-
  FieldForest.Value.Basic — values, declarations and fields.

  A declaration is what a caller writes: statements, each a keyword with arguments, grouped
  into blocks at will. A field is what a statement comes to mean. Arguments and options are
  values of any kind, declarations and fields among them, so the four types are defined
  together.

  A field always says whether it is required. That flag is one of its options, in a place of
  its own among the others, so a field keeps the options that stand in front of the flag and
  those behind it.
-/
import FieldForest.Json.Basic

namespace FieldForest

mutual

/-- What may stand in an argument list or an option. -/
inductive Value where
  | none
  | bool (b : Bool)
  | int (n : Int)
  | float (x : Binary64)
  | text (t : Text)
  | list (elements : List Value)
  | tuple (elements : List Value)
  | dict (entries : List (Value × Value))
  /-- A dictionary that can be read and not changed. -/
  | fixed (entries : List (Value × Value))
  | item (i : Item)
  | nested (body : Declaration)
  | field (f : Field)

/-- A statement, or a block of statements and blocks. -/
inductive Item where
  | statement (keyword : Text) (args : List Value)
  | block (items : List Item)

/-- A single item or a sequence of items. -/
inductive Declaration where
  | single (item : Item)
  | sequence (items : List Item)

/-- A named, typed field with its options and the fields below it. -/
inductive Field where
  | mk (id type : Text) (leading : List (Text × Value)) (required : Bool) (trailing : List (Text × Value))
      (fields : List Field)

end

instance : Inhabited Value := ⟨.none⟩

namespace Field

def id : Field → Text
  | .mk id _ _ _ _ _ => id

def type : Field → Text
  | .mk _ type _ _ _ _ => type

def required : Field → Bool
  | .mk _ _ _ required _ _ => required

def fields : Field → List Field
  | .mk _ _ _ _ _ fields => fields

/-- The options other than the flag, in order. -/
def settings : Field → List (Text × Value)
  | .mk _ _ leading _ trailing _ => leading ++ trailing

/-- The name of the flag among the options. -/
def flagKey : Text := "required"

/-- All options in order, the flag in its place. -/
def options : Field → List (Text × Value)
  | .mk _ _ leading required trailing _ => leading ++ (flagKey, .bool required) :: trailing

/-- A field with fields below it. -/
def isComposite (f : Field) : Bool := !f.fields.isEmpty

end Field

namespace Declaration

def items : Declaration → List Item
  | .single item => [item]
  | .sequence items => items

end Declaration

namespace Value

/-- Values that are a declaration or the body of one. -/
def isDeclaration : Value → Bool
  | .item _ => true
  | .nested _ => true
  | _ => false

/-- The value that a JSON document stands for. -/
def ofJson : Json → Value
  | .null => .none
  | .bool b => .bool b
  | .int n => .int n
  | .float x => .float x
  | .text t => .text t
  | .array elements => .list (ofElements elements)
  | .object members => .dict (ofMembers members)
where
  ofElements : List Json → List Value
    | [] => []
    | x :: xs => ofJson x :: ofElements xs
  ofMembers : List (Text × Json) → List (Value × Value)
    | [] => []
    | (key, x) :: rest => (.text key, ofJson x) :: ofMembers rest

end Value

end FieldForest
