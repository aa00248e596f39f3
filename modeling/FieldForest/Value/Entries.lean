/-
  FieldForest.Value.Entries — dictionaries put together from keys and values.

  A key has to be a value that never changes: numbers, strings, nothing, and tuples of such.
  A key equal to an earlier one takes over its place and its spelling with the new value.
-/
import FieldForest.Value.Elements
import FieldForest.Value.Equality

namespace FieldForest

namespace Value

mutual

/-- A value that can be a key. -/
def isKey : Value → Bool
  | .tuple elements => allKeys elements
  | .none => true
  | .bool _ => true
  | .int _ => true
  | .float _ => true
  | .text _ => true
  | _ => false

def allKeys : List Value → Bool
  | [] => true
  | x :: xs => isKey x && allKeys xs

end

/-- Gives `key` the value `value`, in place if an equal key is there and at the end if not. -/
def putEntry (key value : Value) : List (Value × Value) → List (Value × Value)
  | [] => [(key, value)]
  | (k, v) :: rest => if k.same key then (k, value) :: rest else (k, v) :: putEntry key value rest

/-- Why a value does not give the entries of a dictionary. -/
inductive EntriesError where
  | notIterable
  | notAKey
  | notAPair (index length : Nat)

/-- Gives a key a value, if the key can be one. -/
def insertEntry (key value : Value) (found : List (Value × Value)) :
    Except EntriesError (List (Value × Value)) :=
  if key.isKey then .ok (putEntry key value found) else .error .notAKey

/-- Entries put in from elements that are pairs, the first of them being number `index`. -/
def putPairs (index : Nat) (found : List (Value × Value)) :
    List Value → Except EntriesError (List (Value × Value))
  | [] => .ok found
  | x :: xs =>
    match x.elements? with
    | .none => .error .notIterable
    | some [key, value] => (insertEntry key value found).bind (putPairs (index + 1) · xs)
    | some parts => .error (.notAPair index parts.length)

/-- The entries that a value gives: its own if it is a dictionary, else those of its pairs. -/
def toEntries : Value → Except EntriesError (List (Value × Value))
  | .dict entries => .ok entries
  | .fixed entries => .ok entries
  | v => match v.elements? with
    | .none => .error .notIterable
    | some xs => putPairs 0 [] xs

def EntriesError.message : EntriesError → Text
  | .notIterable => "object is not iterable"
  | .notAKey => "unhashable type"
  | .notAPair index length =>
    "dictionary update sequence element #" ++ Text.ofNat index ++ " has length " ++ Text.ofNat length ++
      "; 2 is required"

end Value

end FieldForest
