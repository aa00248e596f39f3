/-
  FieldForest.Number.Integer — whole numbers as people write them where a number is asked for.

  The plain form is a minus sign if need be and digits that do not begin with a zero, or zero
  alone. A text that is not in plain form is brought into it, if that can be done: blanks
  around it, a plus sign, zeros in front and a fraction of zeros are dropped, and so are single
  underscores between digits. Zeros may also stand in front of a minus sign. A number in plain
  form may have a limited length only, and is refused for it as soon as it turns out too long,
  whatever follows.
-/
import FieldForest.Text.Blank

namespace FieldForest

namespace Integer

/-- Why a text is no whole number. -/
inductive Fault where
  | notANumber
  | tooLong

/-- The most code points that a number in plain form may have. -/
def mostPlaces : Nat := 4300

/-- A text without the minus sign in front, and whether there is one. -/
def splitSign : Text → Bool × Text
  | .char '-' :: rest => (true, rest)
  | t => (false, t)

/-- The number that a text in plain form writes. -/
def ofPlain (t : Text) : Except Fault Int :=
  let (negative, unsigned) := splitSign t
  match unsigned.spanDigits with
  | ([], _) => .error .notANumber
  | ('0' :: _, _) => if unsigned.length = 1 then .ok 0 else .error .notANumber
  | (digits, rest) =>
    if mostPlaces < t.length - rest.length then .error .tooLong
    else if rest.isEmpty then
      let n : Int := Nat.ofDigitChars 10 digits 0
      .ok (if negative then -n else n)
    else .error .notANumber

/-- Behind a zero: the text from the first digit that is no zero or from a minus sign, or from the
    code point in front of a point, or the last code point; `last` is the code point in front. -/
def dropZerosBehind (last : CodePoint) : Text → Option Text
  | [] => some [last]
  | c :: rest =>
    if c = .char '0' ∨ c = .char '_' then dropZerosBehind c rest
    else if c = .char '.' then some (last :: c :: rest)
    else if c = .char '-' ∨ '1'.toNat ≤ c.toNat ∧ c.toNat ≤ '9'.toNat then some (c :: rest)
    else none

/-- A text that begins with a digit, without the zeros in front that do not count. -/
def dropZeros? : Text → Option Text
  | [] => none
  | c :: rest =>
    if c = .char '0' then dropZerosBehind c rest
    else if '1'.toNat ≤ c.toNat ∧ c.toNat ≤ '9'.toNat then some (c :: rest)
    else none

/-- A text without a point at its end that has one zero behind it or more. -/
def dropFraction (t : Text) : Text :=
  let (whole, fraction) := t.span (· ≠ .char '.')
  match fraction with
  | _ :: zero :: zeros => if (zero :: zeros).all (· = .char '0') then whole else t
  | _ => t

/-- Underscores stand alone. -/
def aloneFrom : Text → Bool
  | .char '_' :: .char '_' :: _ => false
  | [.char '_'] => false
  | _ :: rest => aloneFrom rest
  | [] => true

/-- A text without underscores, if each of them is between others. -/
def dropUnderscores (t : Text) : Text :=
  if t.head? ≠ some (.char '_') ∧ aloneFrom t then t.filter (· ≠ .char '_') else t

/-- A text brought into plain form as far as it goes. -/
def toPlain? (t : Text) : Option Text :=
  let tidy (unsigned : Text) : Option Text := (dropZeros? unsigned).map (dropUnderscores ∘ dropFraction)
  match Text.trimBlanks t with
  | .char '-' :: unsigned => (tidy unsigned).map (.char '-' :: ·)
  | .char '+' :: unsigned => tidy unsigned
  | unsigned => tidy unsigned

/-- The whole number that a text writes. -/
def ofText (t : Text) : Except Fault Int :=
  match ofPlain t with
  | .ok n => .ok n
  | .error .tooLong => .error .tooLong
  | .error .notANumber =>
    match (toPlain? t).map ofPlain with
    | some (.ok n) => .ok n
    | _ => .error .notANumber

end Integer

end FieldForest
