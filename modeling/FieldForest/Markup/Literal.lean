/-
  FieldForest.Markup.Literal — texts that write a value.

  Values are numbers, strings of characters or of bytes, three words and an ellipsis, and
  tuples, sets and dictionaries of values. A number may have a sign, and a real number may have
  an imaginary one added to it. What a set holds and what keys a dictionary are values that
  never change, so no sets or dictionaries, also not inside tuples. Only whether a text writes
  a value is asked here, not which.
-/
import FieldForest.Number.Binary64

namespace FieldForest.Markup.Literal

/-- A number without a sign. -/
inductive Numeral where
  | whole (n : Nat)
  | real
  | imaginary

inductive Lexeme where
  | numeral (n : Numeral)
  | string (ofBytes : Bool)
  | word (name : Text)
  | ellipsis
  | comma
  | colon
  | sign
  | opening (brace : Bool)
  | closing (brace : Bool)
  | lineEnd
deriving Inhabited

/-! ## Numbers -/

/-- A code point that words go on with. -/
def continuesWord (c : CodePoint) : Bool :=
  match c with
  | .char c => c.isAlphanum || c == '_' || 0x80 ≤ c.toNat
  | .loneSurrogate _ => true

/-- The digits below `base` in front of a text, with single underscores between or in front. -/
def digitRun (base : Nat) : Text → Option (List Char × Text)
  | [] => some ([], [])
  | .char '_' :: c :: rest => if isDigit c then (digitRun base rest).map (put c) else none
  | [.char '_'] => none
  | c :: rest => if isDigit c then (digitRun base rest).map (put c) else some ([], c :: rest)
where
  isDigit (c : CodePoint) : Bool := c.hexDigit?.any (· < base)
  put (c : CodePoint) : List Char × Text → List Char × Text := fun (digits, rest) => (Char.ofNat c.toNat :: digits, rest)

/-- Decimal digits, if the first code point is one. -/
def decimalRun (s : Text) : Option (List Char × Text) :=
  match s with
  | .char '_' :: _ => some ([], s)
  | s => digitRun 10 s

/-- The base that a letter behind a zero announces. -/
def base? : CodePoint → Option Nat
  | .char 'x' => some 16
  | .char 'X' => some 16
  | .char 'o' => some 8
  | .char 'O' => some 8
  | .char 'b' => some 2
  | .char 'B' => some 2
  | _ => none

/-- A whole number in decimal; it does not begin with a zero, unless it is nothing but zeros. -/
def whole? (digits : List Char) : Option Numeral :=
  if digits.isEmpty then none
  else if digits.all (· == '0') then some (.whole 0)
  else if digits.head? = some '0' ∨ Text.mostDigits < digits.length then none
  else some (.whole (Nat.ofDigitChars 10 digits 0))

/-- What follows the digits of an exponent, or the text itself if it begins with none. -/
def afterExponent? (s : Text) : Option (Bool × Text) :=
  match s with
  | .char mark :: rest =>
    if mark = 'e' ∨ mark = 'E' then
      let unsigned : Text := match rest with
        | .char '+' :: rest => rest
        | .char '-' :: rest => rest
        | rest => rest
      match decimalRun unsigned with
      | some (_ :: _, rest) => some (true, rest)
      | _ => none
    else some (false, s)
  | s => some (false, s)

/-- A number in decimal. -/
def decimal? (s : Text) : Option (Numeral × Text) := do
  let (digits, rest) ← decimalRun s
  let (point, rest) ← match rest with
    | .char '.' :: rest => (decimalRun rest).map fun (_, rest) => (true, rest)
    | rest => some (false, rest)
  let (exponent, rest) ← afterExponent? rest
  match rest with
  | .char 'j' :: rest => some (.imaginary, rest)
  | .char 'J' :: rest => some (.imaginary, rest)
  | rest => if point || exponent then some (.real, rest) else (whole? digits).map (·, rest)

/-- A number, which no word may follow at once. -/
def numeral? (s : Text) : Option (Numeral × Text) := do
  let (n, rest) ← match s with
    | .char '0' :: letter :: digits =>
      match base? letter with
      | some base =>
        match digitRun base digits with
        | some (d :: ds, rest) => some (Numeral.whole (Nat.ofDigitChars base (d :: ds) 0), rest)
        | _ => none
      | none => decimal? s
    | s => decimal? s
  if rest.head?.any continuesWord then none else some (n, rest)

/-! ## Strings -/

/-- The inside of a string behind its opening quotes, and what follows its closing ones. Between
    three quotes a string may have several lines. -/
def inside? (quote : CodePoint) (triple : Bool) : Text → Option (Text × Text)
  | [] => none
  | .char '\\' :: c :: rest => (inside? quote triple rest).map fun (t, after) => (.char '\\' :: c :: t, after)
  | c :: rest =>
    if triple then
      if [quote, quote, quote].isPrefixOf (c :: rest) then some ([], rest.drop 2)
      else (inside? quote triple rest).map fun (t, after) => (c :: t, after)
    else if c = quote then some ([], rest)
    else if c = .char '\n' then none
    else (inside? quote triple rest).map fun (t, after) => (c :: t, after)

/-- The number that the first `count` code points write in hexadecimal. -/
def hexNumber? (count : Nat) (s : Text) : Option Nat :=
  let digits := (s.take count).filterMap CodePoint.hexDigit?
  if digits.length = count then some (digits.foldl (fun n d => 16 * n + d) 0) else none

/-- The name of a code point between braces: letters, digits, spaces and hyphens. -/
def isNamed : Text → Bool
  | .char '\x7b' :: rest =>
    match rest.span (· ≠ .char '\x7d') with
    | (c :: name, _ :: _) => (c :: name).all fun
      | .char c => c.isAlphanum || c == ' ' || c == '-'
      | .loneSurrogate _ => false
    | _ => false
  | _ => false

/-- Every escape in a string is complete. -/
def escapesAreSound (ofBytes : Bool) : Text → Bool
  | [] => true
  | .char '\\' :: .char 'x' :: rest => (hexNumber? 2 rest).isSome && escapesAreSound ofBytes rest
  | .char '\\' :: .char 'u' :: rest => (ofBytes || (hexNumber? 4 rest).isSome) && escapesAreSound ofBytes rest
  | .char '\\' :: .char 'U' :: rest =>
    (ofBytes || (hexNumber? 8 rest).any (· ≤ 0x10FFFF)) && escapesAreSound ofBytes rest
  | .char '\\' :: .char 'N' :: rest => (ofBytes || isNamed rest) && escapesAreSound ofBytes rest
  | .char '\\' :: _ :: rest => escapesAreSound ofBytes rest
  | _ :: rest => escapesAreSound ofBytes rest

/-- What a string is, by the letters in front of it. -/
structure StringKind where
  ofBytes : Bool
  raw : Bool

def kinds : List (String × StringKind) :=
  [("", ⟨false, false⟩), ("u", ⟨false, false⟩), ("r", ⟨false, true⟩), ("b", ⟨true, false⟩), ("br", ⟨true, true⟩),
    ("rb", ⟨true, true⟩)]

def kind? (letters : Text) : Option StringKind :=
  let small : Text := letters.map fun
    | .char c => .char c.toLower
    | c => c
  (kinds.find? fun (name, _) => (name : Text) == small).map (·.2)

/-- A string of a kind, from its opening quote on. Bytes are written in ASCII. -/
def string? (kind : StringKind) : Text → Option (Lexeme × Text)
  | [] => none
  | quote :: rest => do
    let triple := [quote, quote].isPrefixOf rest
    let (t, rest) ← inside? quote triple (if triple then rest.drop 2 else rest)
    if (kind.raw || escapesAreSound kind.ofBytes t) && (!kind.ofBytes || t.all fun c => c.toNat < 0x80) then
      some (.string kind.ofBytes, rest)
    else none

/-! ## Lexemes -/

def isQuote (c : CodePoint) : Bool := c = .char '\'' || c = .char '"'

def isGap (c : CodePoint) : Bool := c = .char ' ' || c = .char '\t' || c = .char '\x0C'

/-- A lexeme that begins with a letter: a word, or a string with letters in front. -/
def wordOrString? (s : Text) : Option (Lexeme × Text) :=
  let (name, rest) := s.span continuesWord
  if rest.head?.any isQuote then (kind? name).bind fun kind => string? kind rest else some (.word name, rest)

/-- The lexeme in front of a text that begins with neither gap nor comment. -/
def lexeme? : Text → Option (Lexeme × Text)
  | [] => none
  | .char ',' :: rest => some (.comma, rest)
  | .char ':' :: rest => some (.colon, rest)
  | .char '+' :: rest => some (.sign, rest)
  | .char '-' :: rest => some (.sign, rest)
  | .char '(' :: rest => some (.opening false, rest)
  | .char ')' :: rest => some (.closing false, rest)
  | .char '\x7b' :: rest => some (.opening true, rest)
  | .char '\x7d' :: rest => some (.closing true, rest)
  | .char '.' :: .char '.' :: .char '.' :: rest => some (.ellipsis, rest)
  | .char '.' :: c :: rest =>
    if c.hexDigit?.any (· < 10) then (numeral? (.char '.' :: c :: rest)).map fun (n, rest) => (.numeral n, rest)
    else none
  | c :: rest =>
    if isQuote c then string? ⟨false, false⟩ (c :: rest)
    else if c.hexDigit?.any (· < 10) then (numeral? (c :: rest)).map fun (n, rest) => (.numeral n, rest)
    else if continuesWord c then wordOrString? (c :: rest)
    else none

/-- The most brackets that may be open. -/
def mostOpen : Nat := 200

/-- How many brackets are open behind a lexeme. -/
def openBehind? (level : Nat) : Lexeme → Option Nat
  | .opening _ => if mostOpen ≤ level then none else some (level + 1)
  | .closing _ => if level = 0 then none else some (level - 1)
  | _ => some level

/-- A line that has something on it does not begin with a gap, unless a form feed ends the gap. -/
def isIndented (s : Text) : Bool :=
  let (gap, rest) := s.span isGap
  gap.getLast?.any (· ≠ .char '\x0C') && rest.head?.any fun c => c ≠ .char '#' && c ≠ .char '\n'

/-- The lexemes of a text where `level` brackets are open; `fresh` says that the line has none so
    far, and `fuel` bounds the length of the text. Lines end where no bracket is open. -/
def lexemes (fuel level : Nat) (fresh : Bool) (s : Text) : Option (List Lexeme) :=
  match fuel, s with
  | 0, _ => none
  | _ + 1, [] => some []
  | fuel + 1, c :: rest =>
    if c = .char '#' then lexemes fuel level fresh (rest.dropWhile (· ≠ .char '\n'))
    else if c = .char '\n' then
      if level = 0 ∧ !fresh then (lexemes fuel level true rest).map (.lineEnd :: ·)
      else lexemes fuel level (level = 0) rest
    else if c = .char '\\' then
      match rest with
      | .char '\n' :: rest => lexemes fuel level fresh rest
      | _ => none
    else if isGap c then
      if fresh ∧ level = 0 ∧ isIndented s then none else lexemes fuel level fresh (rest.dropWhile isGap)
    else do
      let (x, rest) ← lexeme? s
      let level ← openBehind? level x
      (lexemes fuel level false rest).map (x :: ·)

/-! ## Values -/

/-- What is known of a value. -/
inductive Worth where
  | number (signed : Bool) (n : Numeral)
  | other (isKey : Bool)

def Worth.isKey : Worth → Bool
  | .number _ _ => true
  | .other isKey => isKey

/-- The words that are values. -/
def constants : List Text := ["True", "False", "None"]

/-- The letters beyond ASCII that are a letter of `set` in another shape. -/
def shapes : Char → List Nat
  | 's' =>
    [0x17F, 0x2E2, 0x209B, 0xFF53, 0x1D42C, 0x1D460, 0x1D494, 0x1D4C8, 0x1D4FC, 0x1D530, 0x1D564, 0x1D598, 0x1D5CC,
      0x1D600, 0x1D634, 0x1D668, 0x1D69C]
  | 'e' =>
    [0x1D49, 0x2091, 0x212F, 0x2147, 0xFF45, 0x1D41E, 0x1D452, 0x1D486, 0x1D4EE, 0x1D522, 0x1D556, 0x1D58A, 0x1D5BE,
      0x1D5F2, 0x1D626, 0x1D65A, 0x1D68E]
  | 't' =>
    [0x1D57, 0x209C, 0xFF54, 0x1D42D, 0x1D461, 0x1D495, 0x1D4C9, 0x1D4FD, 0x1D531, 0x1D565, 0x1D599, 0x1D5CD, 0x1D601,
      0x1D635, 0x1D669, 0x1D69D]
  | _ => []

/-- Whether a code point is a letter, in whatever shape. -/
def isShapeOf (letter : Char) (c : CodePoint) : Bool := c = .char letter || (shapes letter).contains c.toNat

/-- Whether a word is `set`, which makes the empty set. -/
def isSetName : Text → Bool
  | [s, e, t] => isShapeOf 's' s && isShapeOf 'e' e && isShapeOf 't' t
  | _ => false

/-- What follows the word `set`, which may stand between parentheses. -/
def afterSetName? : List Lexeme → Option (List Lexeme)
  | .word name :: rest => if isSetName name then some rest else none
  | .opening false :: rest =>
    match afterSetName? rest with
    | some (.closing false :: rest) => some rest
    | _ => none
  | _ => none

/-- What follows the empty set: its name and an empty pair of parentheses. -/
def afterEmptySet? (s : List Lexeme) : Option (List Lexeme) :=
  match afterSetName? s with
  | some (.opening false :: .closing false :: rest) => some rest
  | _ => none

/-- Strings that follow each other are one, if they are of one kind. -/
def afterStrings? (ofBytes : Bool) : List Lexeme → Option (List Lexeme)
  | .string other :: rest => if other = ofBytes then afterStrings? ofBytes rest else none
  | rest => some rest

/-- The sum of a real number and an imaginary one. The real number has to be one that a binary
    number comes near. -/
def sum? : Worth → Worth → Option Worth
  | .number _ (.whole n), .number false .imaginary =>
    if (Magnitude.ofDecimal? n 0).isSome then some (.other true) else none
  | .number _ .real, .number false .imaginary => some (.other true)
  | _, _ => none

mutual

/-- A value without a sign in front of the lexemes, and the rest; `fuel` bounds how far it goes. -/
def operand? (fuel : Nat) (s : List Lexeme) : Option (Worth × List Lexeme) :=
  match fuel, s with
  | 0, _ => none
  | _ + 1, .numeral n :: rest => some (.number false n, rest)
  | _ + 1, .string ofBytes :: rest => (afterStrings? ofBytes rest).map (.other true, ·)
  | _ + 1, .ellipsis :: rest => some (.other true, rest)
  | _ + 1, .word name :: rest =>
    if constants.contains name then some (.other true, rest)
    else (afterEmptySet? (.word name :: rest)).map (.other false, ·)
  | _ + 1, .opening false :: .closing false :: rest => some (.other true, rest)
  | fuel + 1, .opening false :: rest =>
    match afterEmptySet? (.opening false :: rest) with
    | some after => some (.other false, after)
    | none => group? fuel rest
  | _ + 1, .opening true :: .closing true :: rest => some (.other false, rest)
  | fuel + 1, .opening true :: rest => braced? fuel rest
  | _ + 1, _ => none

/-- A value, with a sign or added up from two. -/
def value? (fuel : Nat) (s : List Lexeme) : Option (Worth × List Lexeme) :=
  match fuel with
  | 0 => none
  | fuel + 1 => do
    let (x, rest) ← match s with
      | .sign :: rest =>
        match operand? fuel rest with
        | some (.number false n, rest) => some (Worth.number true n, rest)
        | _ => none
      | s => operand? fuel s
    match rest with
    | .sign :: rest =>
      let (y, rest) ← operand? fuel rest
      (sum? x y).map (·, rest)
    | rest => some (x, rest)

/-- What stands behind an opening parenthesis: one value, or the values of a tuple. -/
def group? (fuel : Nat) (s : List Lexeme) : Option (Worth × List Lexeme) :=
  match fuel with
  | 0 => none
  | fuel + 1 => do
    let (x, rest) ← value? fuel s
    match rest with
    | .closing false :: rest => some (x, rest)
    | .comma :: rest =>
      let (areKeys, rest) ← elements? fuel false rest
      some (.other (x.isKey && areKeys), rest)
    | _ => none

/-- Values up to the closing bracket, and whether all of them can be keys. -/
def elements? (fuel : Nat) (brace : Bool) (s : List Lexeme) : Option (Bool × List Lexeme) :=
  match fuel, s with
  | 0, _ => none
  | _ + 1, .closing b :: rest => if b = brace then some (true, rest) else none
  | fuel + 1, s => do
    let (x, rest) ← value? fuel s
    match rest with
    | .closing b :: rest => if b = brace then some (x.isKey, rest) else none
    | .comma :: rest => (elements? fuel brace rest).map fun (areKeys, rest) => (x.isKey && areKeys, rest)
    | _ => none

/-- What stands behind an opening brace: the values of a set, or the entries of a dictionary. -/
def braced? (fuel : Nat) (s : List Lexeme) : Option (Worth × List Lexeme) :=
  match fuel with
  | 0 => none
  | fuel + 1 => do
    let (x, rest) ← value? fuel s
    if !x.isKey then none
    else match rest with
      | .closing true :: rest => some (.other false, rest)
      | .comma :: rest =>
        match elements? fuel true rest with
        | some (true, rest) => some (.other false, rest)
        | _ => none
      | .colon :: rest =>
        let (_, rest) ← value? fuel rest
        (entries? fuel rest).map (.other false, ·)
      | _ => none

/-- Further entries of a dictionary up to the closing brace. -/
def entries? (fuel : Nat) (s : List Lexeme) : Option (List Lexeme) :=
  match fuel, s with
  | 0, _ => none
  | _ + 1, .closing true :: rest => some rest
  | _ + 1, .comma :: .closing true :: rest => some rest
  | fuel + 1, .comma :: rest =>
    match value? fuel rest with
    | some (key, .colon :: rest) =>
      if key.isKey then
        match value? fuel rest with
        | some (_, rest) => entries? fuel rest
        | none => none
      else none
    | _ => none
  | _ + 1, _ => none

end

/-- Whether a text writes a value; a text of several writes a tuple. -/
def isValue (t : Text) : Bool :=
  if t.hasLoneSurrogate || t.contains (.char '\x00') then false
  else
    let t := t.unifyNewlines
    match lexemes (t.length + 1) 0 true t with
    | none => false
    | some found =>
      let line := found.takeWhile fun | .lineEnd => false | _ => true
      let others := (found.drop line.length).any fun | .lineEnd => false | _ => true
      match line with
      | [] => false
      | line => !others && (group? (4 * line.length + 4) (line ++ [.closing false])).any (·.2.isEmpty)

end FieldForest.Markup.Literal
