/-
  FieldForest.Text.Quoted — a text between quotes, with all that is not printable escaped.

  Single quotes are used, unless the text holds a single quote and no double quote. Inside,
  the backslash and the quote in use have a backslash in front, line feed, carriage return
  and tab have a letter each, and every other code point that is not printable is written in
  hexadecimal, with two, four or eight digits.
-/
import FieldForest.Text.Printable

namespace FieldForest.Text

/-- The quote that a text is written between. -/
def quoteMark (t : Text) : Char :=
  if .char '\'' ∈ t ∧ .char '"' ∉ t then '"' else '\''

def hexEscape (n : Nat) : Text :=
  if n ≤ 0xFF then "\\x" ++ ofHex 2 n
  else if n ≤ 0xFFFF then "\\u" ++ ofHex 4 n
  else "\\U" ++ ofHex 8 n

/-- A code point as it is written between the quotes `mark`. -/
def escapeIn (mark : Char) (c : CodePoint) : Text :=
  if c = .char '\\' ∨ c = .char mark then [.char '\\', c]
  else if c = .char '\n' then "\\n"
  else if c = .char '\r' then "\\r"
  else if c = .char '\t' then "\\t"
  else if isPrintable c then [c]
  else hexEscape c.toNat

def quoted (t : Text) : Text :=
  let mark := quoteMark t
  .char mark :: t.flatMap (escapeIn mark) ++ [.char mark]

end FieldForest.Text
