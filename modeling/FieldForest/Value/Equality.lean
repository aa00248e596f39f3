/-
  FieldForest.Value.Equality — when two values count as equal.

  Truth values count as the numbers one and zero, and numbers are equal if they are the same
  number, whole or not; what is no number equals nothing. Lists and tuples are equal to their
  own kind, element by element. A dictionary equals one with equal entries in any order.
  Statements, blocks, bodies and fields are equal if all their parts are. Parts that are the
  same count as equal, so a list equals itself also where what is no number stands in it.
-/
import FieldForest.Value.Basic

namespace FieldForest

namespace Value

/-- A value as a number: exactly the whole number, or the binary one. -/
def number? : Value → Option (Int ⊕ Binary64)
  | .bool b => some (.inl (if b then 1 else 0))
  | .int n => some (.inl n)
  | .float x => some (.inr x)
  | _ => .none

/-- Equality of numbers that are parts of values, each compared as it is and none rounded. -/
def sameNumber : Int ⊕ Binary64 → Int ⊕ Binary64 → Bool
  | .inl n, .inl m => n == m
  | .inl n, .inr y => y.units? == some (n * Magnitude.unitsPerOne)
  | .inr x, .inl m => x.units? == some (m * Magnitude.unitsPerOne)
  | .inr x, .inr y => x.same y

end Value

mutual

def Value.same : Value → Value → Bool
  | .none, .none => true
  | .text a, .text b => a == b
  | .list xs, .list ys => Value.allSame xs ys
  | .tuple xs, .tuple ys => Value.allSame xs ys
  | .dict xs, .dict ys => xs.length == ys.length && Value.entriesIn xs ys
  | .dict xs, .fixed ys => xs.length == ys.length && Value.entriesIn xs ys
  | .fixed xs, .dict ys => xs.length == ys.length && Value.entriesIn xs ys
  | .fixed xs, .fixed ys => xs.length == ys.length && Value.entriesIn xs ys
  | .item i, .item j => i.same j
  | .nested a, .nested b => a.same b
  | .field f, .field g => f.same g
  | a, b => match a.number?, b.number? with
    | some x, some y => Value.sameNumber x y
    | _, _ => false

def Value.allSame : List Value → List Value → Bool
  | [], [] => true
  | x :: xs, y :: ys => x.same y && Value.allSame xs ys
  | _, _ => false

/-- Every entry has an equal one among `ys`. -/
def Value.entriesIn : List (Value × Value) → List (Value × Value) → Bool
  | [], _ => true
  | (k, v) :: rest, ys => ys.any (fun (k', v') => k.same k' && v.same v') && Value.entriesIn rest ys

/-- Every option has one of the same name and an equal value among `ys`. -/
def Value.optionsIn : List (Text × Value) → List (Text × Value) → Bool
  | [], _ => true
  | (k, v) :: rest, ys => ys.any (fun (k', v') => k == k' && v.same v') && Value.optionsIn rest ys

def Item.same : Item → Item → Bool
  | .statement k xs, .statement l ys => k == l && Value.allSame xs ys
  | .block is, .block js => Item.allSame is js
  | _, _ => false

def Item.allSame : List Item → List Item → Bool
  | [], [] => true
  | i :: is, j :: js => i.same j && Item.allSame is js
  | _, _ => false

def Declaration.same : Declaration → Declaration → Bool
  | .single i, .single j => i.same j
  | .sequence is, .sequence js => Item.allSame is js
  | _, _ => false

def Field.same : Field → Field → Bool
  | .mk id type leading required trailing fields, g =>
    id == g.id && type == g.type && required == g.required &&
      leading.length + trailing.length == g.settings.length &&
      Value.optionsIn leading g.settings && Value.optionsIn trailing g.settings &&
      Field.allSame fields g.fields

def Field.allSame : List Field → List Field → Bool
  | [], [] => true
  | f :: fs, g :: gs => f.same g && Field.allSame fs gs
  | _, _ => false

end

/-- Equality of values. On its own, what is no number is not even equal to itself. -/
def Value.equals : Value → Value → Bool
  | .float x, .float y => x.equals y
  | a, b => a.same b

end FieldForest
