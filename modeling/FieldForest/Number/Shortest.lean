/-
  FieldForest.Number.Shortest — the shortest decimal that reads back as a binary number.

  Among the decimals of one digit, then two, and so on, only the two next to the number can
  read back as it. The first of them in that order that does is the number's shortest
  decimal; of two with equally many digits the nearer comes first. Seventeen digits are
  enough for every number; the number's exact decimal stands behind the list, so that the
  search has an answer whatever the list holds.
-/
import FieldForest.Number.Binary64

namespace FieldForest

/-- The number `digits * 10 ^ exponent`. -/
structure Decimal where
  digits : Nat
  exponent : Int
deriving DecidableEq

namespace Decimal

/-- The same number without zeros at the end of its digits; `fuel` bounds how many are cut. -/
def dropZeros (fuel : Nat) (d : Decimal) : Decimal :=
  match fuel with
  | 0 => d
  | fuel + 1 => if d.digits % 10 = 0 then dropZeros fuel ⟨d.digits / 10, d.exponent + 1⟩ else d

end Decimal

namespace Magnitude

/-- The exponent of the leading decimal digit of a positive number. -/
def leadingExponent (x : Magnitude) : Int :=
  if unitsPerOne ≤ x.units then ((Nat.toDigits 10 (x.units / unitsPerOne)).length : Int) - 1
  else -((Nat.toDigits 10 (unitsPerOne / x.units)).length : Int)

/-- The two decimals with the exponent `exponent` that are next to the number, the nearer first. -/
def neighbours (x : Magnitude) (exponent : Int) : List Decimal :=
  let num := x.units * Nat.pow 10 (-exponent).toNat
  let den := unitsPerOne * Nat.pow 10 exponent.toNat
  let below : Decimal := ⟨num / den, exponent⟩
  let above : Decimal := ⟨num / den + 1, exponent⟩
  if roundDiv num den = num / den then [below, above] else [above, below]

/-- The decimals next to the number that have one to seventeen digits. -/
def candidates (x : Magnitude) : List Decimal :=
  (List.range 17).flatMap fun n => x.neighbours (x.leadingExponent - (n : Nat))

/-- The number itself, as a decimal. -/
def exactDecimal (x : Magnitude) : Decimal := ⟨x.units * Nat.pow 5 1074, -1074⟩

def readsBack (x : Magnitude) (d : Decimal) : Bool := ofDecimal? d.digits d.exponent == some x

/-- The shortest decimal that reads back as the number. -/
def shortest (x : Magnitude) : Decimal :=
  if x.mantissa = 0 then ⟨0, 0⟩
  else
    let d := (x.candidates.find? x.readsBack).getD x.exactDecimal
    d.dropZeros (Nat.toDigits 10 d.digits).length

end Magnitude

end FieldForest
