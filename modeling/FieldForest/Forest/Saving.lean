/-
  FieldForest.Forest.Saving — forests written as JSON.

  A field is an object of its id, type, options and fields, in this order. Option values that
  JSON has no form for are written as what comes nearest: tuples as arrays, keys that are no
  strings as the text of the key, declarations as objects of their parts. Half a surrogate
  pair cannot be written, nor can a dictionary that must not be changed, nor values that nest
  too deep.
-/
import FieldForest.Value.Display
import FieldForest.Json.Writer

namespace FieldForest

namespace Value

mutual

/-- The text that is written for a key: that of a tuple is made of those of its elements. -/
def keyText : Value → Text
  | .text t => t
  | .bool b => if b then "true" else "false"
  | .float (.finite negative size) => (Binary64.finite negative size).displayed
  | .float _ => "None"
  | .tuple elements => List.intercalate "," (keyTexts elements)
  | v => v.display

def keyTexts : List Value → List Text
  | [] => []
  | x :: xs => keyText x :: keyTexts xs

end

end Value

mutual

def Value.toJson : Value → Json
  | .none => .null
  | .bool b => .bool b
  | .int n => .int n
  | .float x => .float x
  | .text t => .text t
  | .list elements => .array (Value.allToJson elements)
  | .tuple elements => .array (Value.allToJson elements)
  | .dict entries => .object (Value.entriesToJson entries)
  | .fixed entries => .object (Value.entriesToJson entries)
  | .item i => i.toJson
  | .nested body => body.toJson
  | .field f => f.toJson

def Value.allToJson : List Value → List Json
  | [] => []
  | x :: xs => x.toJson :: Value.allToJson xs

def Value.entriesToJson : List (Value × Value) → List (Text × Json)
  | [] => []
  | (k, v) :: rest => (k.keyText, v.toJson) :: Value.entriesToJson rest

def Value.optionsToJson : List (Text × Value) → List (Text × Json)
  | [] => []
  | (k, v) :: rest => (k, v.toJson) :: Value.optionsToJson rest

def Item.toJson : Item → Json
  | .statement keyword args =>
    .object [("keyword", .text keyword), ("args", .array (Value.allToJson args))]
  | .block items => .object [("statements", .array (Item.allToJson items))]

def Item.allToJson : List Item → List Json
  | [] => []
  | i :: is => i.toJson :: Item.allToJson is

def Declaration.toJson : Declaration → Json
  | .single i => .object [("body", i.toJson)]
  | .sequence is => .object [("body", .array (Item.allToJson is))]

def Field.toJson : Field → Json
  | .mk id type leading required trailing fields =>
    .object [("id", .text id), ("type", .text type),
      ("options", .object (Value.optionsToJson leading ++
        (Field.flagKey, .bool required) :: Value.optionsToJson trailing)),
      ("fields", .array (Field.allToJson fields))]

def Field.allToJson : List Field → List Json
  | [] => []
  | f :: fs => f.toJson :: Field.allToJson fs

end

/-! ## Levels -/

mutual

/-- How many levels a value takes where it is saved: one of its own, on top of what it holds. -/
def Value.levels : Value → Nat
  | .list elements => 1 + Value.mostLevels elements
  | .tuple elements => 1 + Value.mostLevels elements
  | .dict entries => 1 + Value.mostEntryLevels entries
  | .fixed entries => 1 + Value.mostEntryLevels entries
  | .item i => i.levels
  | .nested body => 1 + body.levels
  | .field f => 1 + f.levels
  | _ => 1

def Value.mostLevels : List Value → Nat
  | [] => 0
  | x :: xs => max x.levels (Value.mostLevels xs)

def Value.mostEntryLevels : List (Value × Value) → Nat
  | [] => 0
  | (_, v) :: rest => max v.levels (Value.mostEntryLevels rest)

def Value.mostOptionLevels : List (Text × Value) → Nat
  | [] => 0
  | (_, v) :: rest => max v.levels (Value.mostOptionLevels rest)

def Item.levels : Item → Nat
  | .statement _ args => 1 + Value.mostLevels args
  | .block items => 1 + max 1 (Item.mostLevels items)

def Item.mostLevels : List Item → Nat
  | [] => 0
  | i :: is => max i.levels (Item.mostLevels is)

def Declaration.levels : Declaration → Nat
  | .single i => i.levels
  | .sequence is => Item.mostLevels is

/-- The levels of a field; its flag takes one. -/
def Field.levels : Field → Nat
  | .mk _ _ leading _ trailing fields =>
    1 + max 1 (max (max (Value.mostOptionLevels leading) (Value.mostOptionLevels trailing))
      (Field.mostLevels fields))

def Field.mostLevels : List Field → Nat
  | [] => 0
  | f :: fs => max f.levels (Field.mostLevels fs)

end

/-! ## What cannot be saved -/

mutual

/-- Some dictionary in a value cannot be changed. -/
def Value.hasFixed : Value → Bool
  | .list elements => Value.anyFixed elements
  | .tuple elements => Value.anyFixed elements
  | .dict entries => Value.anyEntryFixed entries
  | .fixed _ => true
  | .item i => i.hasFixed
  | .nested body => body.hasFixed
  | .field f => f.hasFixed
  | _ => false

def Value.anyFixed : List Value → Bool
  | [] => false
  | x :: xs => x.hasFixed || Value.anyFixed xs

def Value.anyEntryFixed : List (Value × Value) → Bool
  | [] => false
  | (_, v) :: rest => v.hasFixed || Value.anyEntryFixed rest

def Value.anyOptionFixed : List (Text × Value) → Bool
  | [] => false
  | (_, v) :: rest => v.hasFixed || Value.anyOptionFixed rest

def Item.hasFixed : Item → Bool
  | .statement _ args => Value.anyFixed args
  | .block items => Item.anyFixed items

def Item.anyFixed : List Item → Bool
  | [] => false
  | i :: is => i.hasFixed || Item.anyFixed is

def Declaration.hasFixed : Declaration → Bool
  | .single i => i.hasFixed
  | .sequence is => Item.anyFixed is

def Field.hasFixed : Field → Bool
  | .mk _ _ leading _ trailing fields =>
    Value.anyOptionFixed leading || Value.anyOptionFixed trailing || Field.anyFixed fields

def Field.anyFixed : List Field → Bool
  | [] => false
  | f :: fs => f.hasFixed || Field.anyFixed fs

end

namespace Forest

/-- Why a forest cannot be saved. -/
inductive SaveError where
  | loneSurrogate
  | fixedDictionary
  | tooDeep

/-- How many levels a saved field may take. -/
def mostLevels : Nat := 254

/-- The text that saves a forest: compact, or indented by `indent` spaces for each level. -/
def dump (indent : Option Nat) (forest : List Field) : Except SaveError Text :=
  let document := Json.array (Field.allToJson forest)
  if mostLevels < Field.mostLevels forest then .error .tooDeep
  else if Field.anyFixed forest then .error .fixedDictionary
  else if document.hasLoneSurrogate then .error .loneSurrogate
  else .ok (document.write indent)

end Forest

end FieldForest
