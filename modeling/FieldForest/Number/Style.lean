/-
  FieldForest.Number.Style — how a binary number is written in decimal.

  Two styles are in use: one where values are shown to a reader, one where they are
  saved. Both write the fewest digits that read back, positionally in a middle range and
  with an exponent outside it, and keep a fraction `.0` in positional whole numbers. They
  differ in where the range begins and in the width of the exponent.
-/
import FieldForest.Number.Shortest

namespace FieldForest

/-- The choices of a decimal style. Numbers whose leading digit stands at an exponent
    from `leastPlain` up to but not `firstScientific` are positional. A positive exponent
    has a plus sign if `plusSign`, and an exponent has `exponentWidth` digits at least. -/
structure DecimalStyle where
  leastPlain : Int
  firstScientific : Int
  plusSign : Bool
  exponentWidth : Nat

namespace DecimalStyle

/-- Numbers in displayed values: `0.0001`, `1e-05`, `1e+16`. -/
def displayed : DecimalStyle := ⟨-4, 16, true, 2⟩

/-- Numbers in saved forests: `0.00001`, `1e-6`, `1e+16`. -/
def saved : DecimalStyle := ⟨-5, 16, true, 1⟩

/-- Digits with a point behind the first `places` of them, padded with zeros on either side. -/
def positional (digits : List Char) (places : Int) : List Char :=
  if places ≤ 0 then '0' :: '.' :: List.replicate (-places).toNat '0' ++ digits
  else if digits.length ≤ places.toNat then
    digits ++ List.replicate (places.toNat - digits.length) '0' ++ ['.', '0']
  else digits.take places.toNat ++ '.' :: digits.drop places.toNat

def writeExponent (style : DecimalStyle) (exponent : Int) : List Char :=
  'e' :: (if exponent < 0 then ['-'] else if style.plusSign then ['+'] else []) ++
    (Nat.toDigits 10 exponent.natAbs).leftpad style.exponentWidth '0'

def scientific (style : DecimalStyle) (digits : List Char) (exponent : Int) : List Char :=
  (match digits with
    | [] => []
    | [d] => [d]
    | d :: ds => d :: '.' :: ds) ++ style.writeExponent exponent

def writeDecimal (style : DecimalStyle) (d : Decimal) : List Char :=
  let digits := Nat.toDigits 10 d.digits
  let leading : Int := d.exponent + digits.length - 1
  if style.leastPlain ≤ leading ∧ leading < style.firstScientific then positional digits (leading + 1)
  else style.scientific digits leading

def writeFinite (style : DecimalStyle) (negative : Bool) (size : Magnitude) : Text :=
  Text.ofChars ((if negative then ['-'] else []) ++ style.writeDecimal size.shortest)

end DecimalStyle

/-- A number as it is displayed; what is no finite number has a name. -/
def Binary64.displayed : Binary64 → Text
  | .nan _ => "nan"
  | .infinite negative => if negative then "-inf" else "inf"
  | .finite negative size => DecimalStyle.displayed.writeFinite negative size

end FieldForest
