/-
  FieldForest.Json.Reader — JSON texts read into documents.

  Reading consumes a text from the front and keeps what is left; an error names the rest of
  the text from the place where it shows, and its position is what is missing in front of
  that rest. How deep arrays and objects may nest and how long numbers may be are limits of
  the reader. Beyond the grammar of JSON the words `NaN`, `Infinity` and
  `-Infinity` are numbers, and half a surrogate pair may stand in a string.
-/
import FieldForest.Json.Basic

namespace FieldForest.Json

structure Limits where
  /-- How deep arrays and objects may nest. -/
  depth : Nat
  /-- How many digits a whole number may have. -/
  intDigits : Nat
  /-- How many places any number may have in front of its point and exponent, the sign included. -/
  places : Option Nat
  /-- The mark of what is read as no number. -/
  nanMark : Nat

/-- What a place in the text should have held, or what is wrong with what it holds. -/
inductive Defect where
  | value
  | name
  | colon
  | comma
  | unterminated
  | controlCharacter
  | escape
  | unicodeEscape
  | extraData
  | byteOrderMark
deriving DecidableEq

inductive ReadError where
  | malformed (defect : Defect) (rest : Text)
  | tooDeep
  | tooManyDigits (count : Nat)

/-- A reader takes a value off the front of a text and gives it with the rest. -/
abbrev Reader (α : Type) := Text → Except ReadError (α × Text)

/-! ## Blanks and numbers -/

def isSpace (c : CodePoint) : Bool :=
  c = .char ' ' || c = .char '\t' || c = .char '\n' || c = .char '\r'

def skipSpace (s : Text) : Text := s.dropWhile isSpace

/-- Zero alone, or digits that do not begin with zero. -/
def integerPart? : Text → Option (List Char × Text)
  | .char '0' :: rest => some (['0'], rest)
  | s => match s.spanDigits with
    | ([], _) => none
    | found => some found

/-- The digits behind a point; a point without a digit is not taken. -/
def fractionPart (s : Text) : List Char × Text :=
  match s with
  | .char '.' :: rest => match Text.spanDigits rest with
    | ([], _) => ([], s)
    | found => found
  | _ => ([], s)

def exponentDigits? (negative : Bool) (s : Text) : Option (Int × Text) :=
  match s.spanDigits with
  | ([], _) => none
  | (digits, rest) =>
    let n : Int := Nat.ofDigitChars 10 digits 0
    some (if negative then -n else n, rest)

/-- An exponent; a mark without a digit is not taken. -/
def exponentPart? : Text → Option (Int × Text)
  | .char mark :: rest =>
    if mark = 'e' ∨ mark = 'E' then
      match rest with
      | .char '-' :: rest => exponentDigits? true rest
      | .char '+' :: rest => exponentDigits? false rest
      | rest => exponentDigits? false rest
    else none
  | _ => none

/-- The longest number in front of a text. Without fraction and exponent it is whole. -/
def readNumber (limits : Limits) : Reader Json := fun s =>
  let (negative, unsigned) := match s with
    | .char '-' :: rest => (true, rest)
    | rest => (false, rest)
  match integerPart? unsigned with
  | none => .error (.malformed .value s)
  | some (digits, rest) =>
    let (fraction, rest) := fractionPart rest
    let exponent? := exponentPart? rest
    if limits.places.any (· < (if negative then digits.length + 1 else digits.length)) then
      .error (.tooManyDigits digits.length)
    else if fraction.isEmpty ∧ exponent?.isNone then
      if limits.intDigits < digits.length then .error (.tooManyDigits digits.length)
      else
        let n : Int := Nat.ofDigitChars 10 digits 0
        .ok (.int (if negative then -n else n), rest)
    else
      let (exponent, rest) := exponent?.getD (0, rest)
      let n := Nat.ofDigitChars 10 (digits ++ fraction) 0
      .ok (.float (.ofDecimal negative n (exponent - fraction.length)), rest)

/-! ## Strings -/

/-- The 16-bit unit that four hexadecimal digits write. -/
def hexUnit? (a b c d : CodePoint) : Option Nat := do
  some ((((← a.hexDigit?) * 16 + (← b.hexDigit?)) * 16 + (← c.hexDigit?)) * 16 + (← d.hexDigit?))

/-- The character that a letter stands for behind a backslash. -/
def shortEscape? : CodePoint → Option Char
  | .char '"' => some '"'
  | .char '\\' => some '\\'
  | .char '/' => some '/'
  | .char 'b' => some '\x08'
  | .char 'f' => some '\x0C'
  | .char 'n' => some '\n'
  | .char 'r' => some '\r'
  | .char 't' => some '\t'
  | _ => none

/-- What a string is written as: code points that stand for themselves or have a short
    escape, and 16-bit units in hexadecimal. -/
inductive Piece where
  | point (c : CodePoint)
  | unit (n : Nat)

def isHighSurrogate (unit : Nat) : Bool := 0xD800 ≤ unit && unit < 0xDC00

def isLowSurrogate (unit : Nat) : Bool := 0xDC00 ≤ unit && unit < 0xE000

/-- The text of the pieces. A high surrogate with a low one right behind it is one character. -/
def joinPieces : List Piece → Text
  | [] => []
  | .point c :: rest => c :: joinPieces rest
  | .unit high :: .unit low :: rest =>
    if isHighSurrogate high ∧ isLowSurrogate low then .ofPair high low :: joinPieces rest
    else .ofUnit high :: joinPieces (.unit low :: rest)
  | .unit n :: rest => .ofUnit n :: joinPieces rest

def putFirst (piece : Piece) : List Piece × Text → List Piece × Text :=
  fun (pieces, rest) => (piece :: pieces, rest)

/-- The pieces of a string behind its opening quote; `opening` is the text from that quote on.
    The digits of a hexadecimal escape have to be followed by something. -/
def readPieces (opening : Text) : Reader (List Piece)
  | [] => .error (.malformed .unterminated opening)
  | .char '"' :: rest => .ok ([], rest)
  | .char '\\' :: [] => .error (.malformed .unterminated opening)
  | .char '\\' :: .char 'u' :: a :: b :: c :: d :: after =>
    match hexUnit? a b c d, after with
    | some n, _ :: _ => (readPieces opening after).map (putFirst (.unit n))
    | _, _ => .error (.malformed .unicodeEscape (.char 'u' :: a :: b :: c :: d :: after))
  | .char '\\' :: .char 'u' :: rest => .error (.malformed .unicodeEscape (.char 'u' :: rest))
  | .char '\\' :: letter :: rest =>
    match shortEscape? letter with
    | some c => (readPieces opening rest).map (putFirst (.point (.char c)))
    | none => .error (.malformed .escape (.char '\\' :: letter :: rest))
  | c :: rest =>
    if c.toNat < 0x20 then .error (.malformed .controlCharacter (c :: rest))
    else (readPieces opening rest).map (putFirst (.point c))

/-- The string whose opening quote is the first code point of `opening` and is followed by `s`. -/
def readString (opening s : Text) : Except ReadError (Text × Text) :=
  (readPieces opening s).map fun (pieces, rest) => (joinPieces pieces, rest)

/-! ## Values -/

/-- The values that are written as a word. -/
def words (nanMark : Nat) : List (Text × Json) :=
  [("null", .null), ("true", .bool true), ("false", .bool false), ("NaN", .float (.nan nanMark)),
    ("Infinity", .float (.infinite false)), ("-Infinity", .float (.infinite true))]

/-- A value that holds no others. -/
def readScalar (limits : Limits) : Reader Json
  | .char '"' :: rest => (readString (.char '"' :: rest) rest).map fun (t, rest) => (.text t, rest)
  | s =>
    match (words limits.nanMark).findSome? fun (word, value) => (word.isPrefixOf? s).map fun rest => (value, rest) with
    | some found => .ok found
    | none => readNumber limits s

/-- One or more items with commas between, up to the bracket that closes them; `fuel` bounds how
    many there are. -/
def readItems {α : Type} (close : Char) (item : Reader α) : Nat → Reader (List α)
  | 0, s => .error (.malformed .comma s)
  | fuel + 1, s => do
    let (x, s) ← item s
    match skipSpace s with
    | [] => .error (.malformed .comma [])
    | c :: rest =>
      if c = .char close then .ok ([x], rest)
      else if c = .char ',' then do
        let (xs, rest) ← readItems close item fuel (skipSpace rest)
        .ok (x :: xs, rest)
      else .error (.malformed .comma (c :: rest))

/-- At most `bound` items behind the bracket that opens them, up to the one that closes them. -/
def readBracketed {α : Type} (close : Char) (item : Reader α) (bound : Nat) : Reader (List α) := fun s =>
  match skipSpace s with
  | [] => readItems close item bound []
  | c :: rest => if c = .char close then .ok ([], rest) else readItems close item bound (c :: rest)

/-- A key with the colon behind it. -/
def readKey : Reader Text
  | .char '"' :: rest => do
    let (key, rest) ← readString (.char '"' :: rest) rest
    match skipSpace rest with
    | .char ':' :: rest => .ok (key, skipSpace rest)
    | rest => .error (.malformed .colon rest)
  | s => .error (.malformed .name s)

/-- A member of an object. -/
def readMember (item : Reader Json) : Reader (Text × Json) := fun s => do
  let (key, s) ← readKey s
  let (x, s) ← item s
  .ok ((key, x), s)

/-- A value in which arrays and objects nest at most `depth` deep, on a text shorter than
    `bound`: each element takes at least one code point, so `bound` ends no array early. -/
def readValue (limits : Limits) (bound : Nat) : Nat → Reader Json
  | 0, s => match s with
    | .char '[' :: _ => .error .tooDeep
    | .char '{' :: _ => .error .tooDeep
    | s => readScalar limits s
  | depth + 1, s => match s with
    | .char '[' :: rest =>
      (readBracketed ']' (readValue limits bound depth) bound rest).map fun (xs, rest) => (.array xs, rest)
    | .char '{' :: rest =>
      (readBracketed '}' (readMember (readValue limits bound depth)) bound rest).map fun (members, rest) =>
        (.object members, rest)
    | s => readScalar limits s

/-- The document that a whole text writes. -/
def read (limits : Limits) (s : Text) : Except ReadError Json :=
  if s.head? = some (.char '\uFEFF') then .error (.malformed .byteOrderMark s)
  else do
    let (document, rest) ← readValue limits (s.length + 1) limits.depth (skipSpace s)
    match skipSpace rest with
    | [] => .ok document
    | rest => .error (.malformed .extraData rest)

/-! ## Where an error shows -/

/-- A place in a text: the code points in front of it, its line and its column, both from 1. -/
structure Place where
  offset : Nat
  line : Nat
  column : Nat

/-- The place where `rest`, the end of `whole`, begins. -/
def Place.ofRest (whole rest : Text) : Place :=
  let before := whole.take (whole.length - rest.length)
  { offset := before.length
    line := before.count (.char '\n') + 1
    column := (before.reverse.takeWhile (· ≠ .char '\n')).length + 1 }

def Defect.message : Defect → Text
  | .value => "Expecting value"
  | .name => "Expecting property name enclosed in double quotes"
  | .colon => "Expecting ':' delimiter"
  | .comma => "Expecting ',' delimiter"
  | .unterminated => "Unterminated string starting at"
  | .controlCharacter => "Invalid control character at"
  | .escape => "Invalid \\escape"
  | .unicodeEscape => "Invalid \\uXXXX escape"
  | .extraData => "Extra data"
  | .byteOrderMark => "Unexpected UTF-8 BOM (decode using utf-8-sig)"

def Place.message (p : Place) : Text :=
  "line " ++ Text.ofNat p.line ++ " column " ++ Text.ofNat p.column ++ " (char " ++ Text.ofNat p.offset ++ ")"

end FieldForest.Json
