/-
  FieldForest.Declaration.Stack — the room for calls within calls while a text is read.

  Whoever reads a text has an end of calls within calls. For JSON that is a number of arrays and
  objects, one in another. Behind that the document is looked through item by item, a block or a
  body within calls of its own; and where it is no declaration, the part at fault is displayed
  level by level, within the calls that are open by then.
-/
import FieldForest.Json.Reader

namespace FieldForest

mutual

/-- How many levels there are to display: one for the document itself, and then those of its parts. -/
def Json.displayLevels : Json → Nat
  | .array elements => 1 + mostDisplayLevels elements
  | .object members => 1 + mostMemberDisplayLevels members
  | .null => 1
  | .bool _ => 1
  | .int _ => 1
  | .float _ => 1
  | .text _ => 1

def Json.mostDisplayLevels : List Json → Nat
  | [] => 0
  | x :: xs => max (displayLevels x) (mostDisplayLevels xs)

def Json.mostMemberDisplayLevels : List (Text × Json) → Nat
  | [] => 0
  | (_, x) :: rest => max (displayLevels x) (mostMemberDisplayLevels rest)

end

namespace Declaration

/-- Whether a number lies beyond a bound, if there is one. -/
def isBeyond (bound : Option Nat) (n : Nat) : Bool := bound.any (· < n)

/-- The room for calls within calls. -/
structure Stack where
  /-- How many arrays and objects, one in another, JSON is read through. -/
  json : Nat
  /-- How many calls can be open while a document is looked through, besides those that are made of
      its items on the way. -/
  calls : Option Nat
  /-- Whether the elements of a list are looked at in a call of their own. -/
  listCalls : Bool
  /-- How many levels can be displayed where so many calls are open. -/
  display : Nat → Option Nat

namespace Stack

/-- A stack that has no end, but for JSON. -/
def endless (json : Nat) : Stack where
  json := json
  calls := none
  listCalls := false
  display _ := none

/-- A stack with room for this many calls of any kind. The way to JSON takes four of them, what is made of
    an item three, and an error about it two. -/
def shared (room : Nat) : Stack where
  json := room - 4
  calls := some (room - 3)
  listCalls := true
  display opened := some (room - opened - 2)

/-- The room that is left of a thousand calls. -/
def usual : Stack := shared 950

variable (stack : Stack)

/-- What is read of JSON. -/
def jsonLimits : Json.Limits := ⟨stack.json, 4300, none, 0⟩

/-- The calls that are open where an element of a list is looked at. -/
def inList (opened : Nat) : Nat := if stack.listCalls then opened + 2 else opened + 1

/-- Whether a part at fault can be displayed. Of nothing nothing is. -/
def canDisplay (opened : Nat) : Json → Bool
  | .null => true
  | data => !isBeyond (stack.display opened) data.displayLevels

/-- There is room for documents that nest this deep. -/
structure Holds (levels : Nat) : Prop where
  calls : isBeyond stack.calls (levels + 2) = false
  display : ∀ opened ≤ levels + 2, isBeyond (stack.display opened) (levels + 1) = false

theorem holds_endless (json levels : Nat) : (endless json).Holds levels where
  calls := rfl
  display _ _ := rfl

/-- Where calls of any kind share their room, there is a call for every level of JSON. -/
theorem calls_shared {room levels : Nat} (h : levels ≤ (shared room).json) :
    isBeyond (shared room).calls levels = false := by
  simp only [shared, isBeyond, Option.any_some, decide_eq_false_iff_not] at h ⊢
  omega

theorem inList_le (opened : Nat) : stack.inList opened ≤ opened + 2 := by
  unfold inList
  split <;> omega

theorem lt_inList (opened : Nat) : opened < stack.inList opened := by
  unfold inList
  split <;> omega

end Stack

end Declaration

end FieldForest
