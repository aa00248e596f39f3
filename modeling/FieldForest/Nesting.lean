/-
  FieldForest.Nesting — how deep declarations may nest.

  Top-level statements stand at depth 1. No declaration is read past `Nesting.most` levels,
  and a build has a limit of its own between 1 and that number.
-/
import FieldForest.Text.Basic

namespace FieldForest

namespace Nesting

/-- The deepest level that is ever accepted. -/
def most : Nat := 200

/-- The deepest level that is accepted where nothing else is said. -/
def usual : Nat := 64

/-- The deepest level that a build accepts. -/
structure Limit where
  depth : Nat
  one_le : 1 ≤ depth
  le_most : depth ≤ most

def Limit.usual : Limit where
  depth := Nesting.usual
  one_le := by decide
  le_most := by decide

/-- A number that is no limit. -/
structure OutOfRange where
  given : Int

def OutOfRange.message (e : OutOfRange) : Text :=
  "max_depth must be between 1 and " ++ Text.ofNat most ++ ", got " ++ Text.ofInt e.given

def Limit.ofInt (n : Int) : Except OutOfRange Limit :=
  if h : 1 ≤ n.toNat ∧ n.toNat ≤ most then .ok ⟨n.toNat, h.1, h.2⟩ else .error ⟨n⟩

/-- The limit that a caller gives, or the usual one. -/
def Limit.given : Option Int → Except OutOfRange Limit
  | none => .ok usual
  | some n => ofInt n

/-- What is said when a declaration nests deeper than `limit`. -/
def exceededMessage (limit : Nat) : Text :=
  "Declaration nesting exceeds maximum depth of " ++ Text.ofNat limit

end Nesting

end FieldForest
