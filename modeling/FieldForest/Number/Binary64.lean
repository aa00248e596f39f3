/-
  FieldForest.Number.Binary64 — binary floating point numbers of 64 bits.

  A finite number is a whole number of units, the unit being the least positive number
  2 ^ -1074; only counts of the form `mantissa * 2 ^ shift` occur, and each in one form.
  So comparison is comparison of whole numbers, and rounding is one division.
-/
import FieldForest.Text.Basic

namespace FieldForest

/-- A finite number without its sign. -/
structure Magnitude where
  mantissa : Nat
  shift : Nat
  mantissa_lt : mantissa < Nat.pow 2 53
  shift_le : shift ≤ 2045
  normal : shift = 0 ∨ Nat.pow 2 52 ≤ mantissa
deriving DecidableEq

/-- A number, or what is no number. The latter has a mark: it is the same as another if it has the
    same mark. -/
inductive Binary64 where
  | nan (mark : Nat)
  | infinite (negative : Bool)
  | finite (negative : Bool) (size : Magnitude)
deriving DecidableEq

/-- The quotient rounded to the nearest whole number, a tie to the even one. -/
def roundDiv (num den : Nat) : Nat :=
  let q := num / den
  let twice := 2 * (num % den)
  if twice < den then q else if den < twice then q + 1 else q + q % 2

namespace Magnitude

/-- How many units 2 ^ -1074 make the number. -/
def units (x : Magnitude) : Nat := x.mantissa * Nat.pow 2 x.shift

/-- The number of units that make one. -/
def unitsPerOne : Nat := Nat.pow 2 1074

def zero : Magnitude where
  mantissa := 0
  shift := 0
  mantissa_lt := by decide
  shift_le := by decide
  normal := .inl rfl

/-- The number with these parts, if they are in range and in normal form. -/
def ofParts? (mantissa shift : Nat) : Option Magnitude :=
  if h : mantissa < Nat.pow 2 53 ∧ shift ≤ 2045 ∧ (shift = 0 ∨ Nat.pow 2 52 ≤ mantissa) then
    some ⟨mantissa, shift, h.1, h.2.1, h.2.2⟩
  else none

/-- The number nearest to `num / den` units, a tie to the even mantissa; `none` is past the largest. -/
def nearest? (num den : Nat) : Option Magnitude :=
  let shift := (num / den).log2 - 52
  let mantissa := roundDiv num (den * Nat.pow 2 shift)
  if mantissa = Nat.pow 2 53 then ofParts? (Nat.pow 2 52) (shift + 1) else ofParts? mantissa shift

/-- The number nearest to `digits * 10 ^ exponent`; `none` is past the largest. -/
def ofDecimal? (digits : Nat) (exponent : Int) : Option Magnitude :=
  let places : Int := (Nat.toDigits 10 digits).length
  if digits = 0 ∨ places + exponent < -400 then some zero
  else if 400 < places + exponent then none
  else nearest? (digits * Nat.pow 10 exponent.toNat * unitsPerOne) (Nat.pow 10 (-exponent).toNat)

end Magnitude

namespace Binary64

/-- The number nearest to `digits * 10 ^ exponent`, with a sign; past the largest it is infinite. -/
def ofDecimal (negative : Bool) (digits : Nat) (exponent : Int) : Binary64 :=
  match Magnitude.ofDecimal? digits exponent with
  | some size => .finite negative size
  | none => .infinite negative

/-- The number as a count of units, with its sign. -/
def units? : Binary64 → Option Int
  | .finite negative size => some (if negative then -(size.units : Int) else size.units)
  | _ => none

/-- The whole number that a finite number without fraction is. -/
def whole? (x : Binary64) : Option Int :=
  x.units?.bind fun n => if n % Magnitude.unitsPerOne = 0 then some (n / Magnitude.unitsPerOne) else none

/-- Equality of numbers: zeros of both signs are equal, and what is no number equals nothing. -/
def equals : Binary64 → Binary64 → Bool
  | .finite n x, .finite m y => (Binary64.finite n x).units? == (Binary64.finite m y).units?
  | .infinite n, .infinite m => n == m
  | _, _ => false

/-- Whether two are equal or the same: what is no number is the same as itself. -/
def same : Binary64 → Binary64 → Bool
  | .nan m, .nan n => m == n
  | x, y => x.equals y

end Binary64

end FieldForest
