/-
  FieldForest.Text.Basic — texts as sequences of code points.

  A text is what a JSON string can hold: characters, and halves of surrogate pairs that
  stand without their other half. A string literal is accepted where a text is expected,
  so formats and messages are written as they read.
-/

namespace FieldForest

/-- A place in a text: a character, or half of a surrogate pair without the other half. -/
inductive CodePoint where
  | char (c : Char)
  | loneSurrogate (n : Fin 2048)
deriving DecidableEq, Inhabited

abbrev Text := List CodePoint

instance : LawfulBEq Text := inferInstance

namespace CodePoint

def toNat : CodePoint → Nat
  | .char c => c.toNat
  | .loneSurrogate n => 0xD800 + n

/-- The code point of a 16-bit unit read on its own. -/
def ofUnit (n : Nat) : CodePoint :=
  if 0xD800 ≤ n ∧ n < 0xE000 then .loneSurrogate (Fin.ofNat 2048 (n - 0xD800)) else .char (Char.ofNat n)

/-- The character that a high and a low surrogate stand for together. -/
def ofPair (high low : Nat) : CodePoint :=
  .char (Char.ofNat (0x10000 + (high - 0xD800) * 0x400 + (low - 0xDC00)))

def isLoneSurrogate : CodePoint → Bool
  | .char _ => false
  | .loneSurrogate _ => true

/-- The value of a hexadecimal digit in either case. -/
def hexDigit? : CodePoint → Option Nat
  | .loneSurrogate _ => none
  | .char c =>
    if c.isDigit then some (c.toNat - '0'.toNat)
    else if 'a' ≤ c ∧ c ≤ 'f' then some (c.toNat - 'a'.toNat + 10)
    else if 'A' ≤ c ∧ c ≤ 'F' then some (c.toNat - 'A'.toNat + 10)
    else none

end CodePoint

namespace Text

def ofChars (cs : List Char) : Text := cs.map .char

def ofString (s : String) : Text := ofChars s.toList

instance : Coe String Text := ⟨ofString⟩

/-- The decimal form of a natural number. -/
def ofNat (n : Nat) : Text := ofChars (Nat.toDigits 10 n)

/-- The decimal form of an integer, with a minus sign if it is negative. -/
def ofInt : Int → Text
  | .ofNat n => ofNat n
  | .negSucc n => "-" ++ ofNat (n + 1)

/-- The most digits that a whole number in decimal is read with. -/
def mostDigits : Nat := 4300

/-- Lower-case hexadecimal digits, at least `width` of them. -/
def ofHex (width n : Nat) : Text := ofChars ((Nat.toDigits 16 n).leftpad width '0')

/-- Spaces put behind a text until it is `width` code points long. -/
def padEnd (width : Nat) (t : Text) : Text := t.rightpad width (.char ' ')

def hasLoneSurrogate (t : Text) : Bool := t.any CodePoint.isLoneSurrogate

/-- The longest run of decimal digits in front of a text, and what follows it. -/
def spanDigits : Text → List Char × Text
  | .char c :: rest =>
    if c.isDigit then
      let (digits, rest) := spanDigits rest
      (c :: digits, rest)
    else ([], .char c :: rest)
  | rest => ([], rest)

/-- A carriage return, with the line feed behind it if there is one, becomes one line feed. -/
def unifyNewlines : Text → Text
  | .char '\r' :: .char '\n' :: rest => .char '\n' :: unifyNewlines rest
  | .char '\r' :: rest => .char '\n' :: unifyNewlines rest
  | c :: rest => c :: unifyNewlines rest
  | [] => []

/-- Whether `n` lies in one of the ranges, which stand in increasing order. -/
def inRanges (n : Nat) : List (Nat × Nat) → Bool
  | [] => false
  | (low, high) :: rest => if n < low then false else if n ≤ high then true else inRanges n rest

end Text

end FieldForest
