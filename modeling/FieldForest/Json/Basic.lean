/-
  FieldForest.Json.Basic — JSON documents.

  An object keeps its members as they are written, in order and with repeated keys.
  `merged` is the document that remains when of the members with one key the last gives the
  value and the first the place.
-/
import FieldForest.Number.Binary64

namespace FieldForest

inductive Json where
  | null
  | bool (b : Bool)
  | int (n : Int)
  | float (x : Binary64)
  | text (t : Text)
  | array (elements : List Json)
  | object (members : List (Text × Json))
deriving Inhabited

namespace Json

/-- Gives `key` the value `value`, in place if the key is there and at the end if not. -/
def put {α : Type} (key : Text) (value : α) : List (Text × α) → List (Text × α)
  | [] => [(key, value)]
  | (k, v) :: rest => if k = key then (key, value) :: rest else (k, v) :: put key value rest

/-- The members with one value for each key: the first place, the last value. -/
def mergeMembers {α : Type} (members : List (Text × α)) : List (Text × α) :=
  members.foldl (fun merged (key, value) => put key value merged) []

mutual

def merged : Json → Json
  | .array elements => .array (mergedElements elements)
  | .object members => .object (mergeMembers (mergedMembers members))
  | .null => .null
  | .bool b => .bool b
  | .int n => .int n
  | .float x => .float x
  | .text t => .text t

def mergedElements : List Json → List Json
  | [] => []
  | x :: xs => merged x :: mergedElements xs

def mergedMembers : List (Text × Json) → List (Text × Json)
  | [] => []
  | (key, x) :: rest => (key, merged x) :: mergedMembers rest

end

mutual

/-- Some string or key holds half of a surrogate pair without the other half. -/
def hasLoneSurrogate : Json → Bool
  | .text t => t.hasLoneSurrogate
  | .array elements => anyLoneSurrogate elements
  | .object members => anyLoneSurrogateIn members
  | .null => false
  | .bool _ => false
  | .int _ => false
  | .float _ => false

def anyLoneSurrogate : List Json → Bool
  | [] => false
  | x :: xs => hasLoneSurrogate x || anyLoneSurrogate xs

def anyLoneSurrogateIn : List (Text × Json) → Bool
  | [] => false
  | (key, x) :: rest => key.hasLoneSurrogate || hasLoneSurrogate x || anyLoneSurrogateIn rest

end

/-- The value of the first member with this key. -/
def member? (key : Text) (members : List (Text × Json)) : Option Json :=
  (members.find? fun m => m.1 == key).map (·.2)

end Json

end FieldForest
