/-
  FieldForest.Settings.Bindings — settings in a file of bindings.

  A binding is a name, an equals sign and a value, with `export` in front if it likes. A
  value between quotes may go on over several lines and hold escapes; a bare value ends with
  its line or with a blank and a number sign. A name without an equals sign is bound to
  nothing. A line that is none of this is left out, and its number can be told. In a value, `$`
  with a name in braces stands for what the name is bound to, earlier in the file or around it.
-/
import FieldForest.Text.Blank

namespace FieldForest.Bindings

/-- A name and the value it is bound to, if any. -/
abbrev Binding := Text × Option Text

/-- What stands on a line, or on several if a value goes on over them. -/
inductive Entry where
  | binding (b : Binding)
  | comment
  | unreadable

def Entry.binding? : Entry → Option Binding
  | .binding b => some b
  | .comment => none
  | .unreadable => none

def Entry.isReadable : Entry → Bool
  | .unreadable => false
  | _ => true

/-- Blanks that do not end a line. -/
def isInlineBlank (c : CodePoint) : Bool :=
  Text.isBlankOrSeparator c && c != .char '\n' && c != .char '\r'

def isLineEnd (c : CodePoint) : Bool := c = .char '\n' || c = .char '\r'

def skipInline (s : Text) : Text := s.dropWhile isInlineBlank

/-- What follows the line. -/
def afterLine (s : Text) : Text := (s.dropWhile (!isLineEnd ·)).drop 1

/-- Without `export` and the blanks behind it. -/
def skipExport (s : Text) : Text :=
  match ("export" : Text).isPrefixOf? s with
  | some (c :: rest) => if isInlineBlank c then skipInline rest else s
  | _ => s

/-- A quoted value behind its opening quote, up to the closing one. A backslash goes with the
    code point behind it, which may be a quote. -/
def quotedValue? (quote : CodePoint) : Text → Option (Text × Text)
  | [] => none
  | .char '\\' :: c :: rest =>
    (quotedValue? quote rest).map fun (value, after) => (.char '\\' :: c :: value, after)
  | c :: rest =>
    if c = quote then some ([], rest)
    else (quotedValue? quote rest).map fun (value, after) => (c :: value, after)

/-- What a letter behind a backslash means between double quotes. -/
def doubleQuotedEscape? : CodePoint → Option Char
  | .char '\\' => some '\\'
  | .char '\'' => some '\''
  | .char '"' => some '"'
  | .char 'a' => some '\x07'
  | .char 'b' => some '\x08'
  | .char 'f' => some '\x0C'
  | .char 'n' => some '\n'
  | .char 'r' => some '\r'
  | .char 't' => some '\t'
  | .char 'v' => some '\x0B'
  | _ => none

/-- What a letter behind a backslash means between single quotes. -/
def singleQuotedEscape? : CodePoint → Option Char
  | .char '\\' => some '\\'
  | .char '\'' => some '\''
  | _ => none

def unescape (escape? : CodePoint → Option Char) : Text → Text
  | .char '\\' :: c :: rest =>
    match escape? c with
    | some d => .char d :: unescape escape? rest
    | none => .char '\\' :: unescape escape? (c :: rest)
  | c :: rest => c :: unescape escape? rest
  | [] => []

/-- A bare value in front of a blank and a number sign. -/
def beforeComment : Text → Text
  | [] => []
  | c :: rest =>
    if Text.isBlankOrSeparator c ∧ (rest.dropWhile Text.isBlankOrSeparator).head? = some (.char '#') then []
    else c :: beforeComment rest

/-- The value behind the equals sign and the blanks after it. -/
def value? : Text → Option (Text × Text)
  | .char '\'' :: rest =>
    (quotedValue? (.char '\'') rest).map fun (v, after) => (unescape singleQuotedEscape? v, after)
  | .char '"' :: rest =>
    (quotedValue? (.char '"') rest).map fun (v, after) => (unescape doubleQuotedEscape? v, after)
  | s => some (Text.trimEnd (beforeComment (s.takeWhile (!isLineEnd ·))), s.dropWhile (!isLineEnd ·))

/-- The name in front of a binding; a comment has none. -/
def name? : Text → Option (Option Text × Text)
  | .char '#' :: rest => some (none, .char '#' :: rest)
  | .char '\'' :: rest =>
    match rest.span (· != .char '\'') with
    | (_ :: _, []) => none
    | ([], _) => none
    | (name, _ :: after) => some (some name, after)
  | s =>
    match s.span (fun c => c != .char '=' && c != .char '#' && !Text.isBlankOrSeparator c) with
    | ([], _) => none
    | (name, after) => some (some name, after)

/-- What is left of a line behind its binding, if that is a comment or nothing. -/
def lineEnd? (s : Text) : Option Text :=
  let s := match skipInline s with
    | .char '#' :: rest => rest.dropWhile (!isLineEnd ·)
    | s => s
  match s with
  | [] => some []
  | c :: rest => if isLineEnd c then some rest else none

/-- An entry of this name, if it has one, and what follows its line. Nothing but a comment may be
    left of the line; else it cannot be read, and the rest of it is skipped. -/
def closed (name : Option Text) (value : Option Text) (s : Text) : Entry × Text :=
  match lineEnd? s with
  | none => (.unreadable, afterLine s)
  | some rest =>
    match name with
    | some name => (.binding (name, value), rest)
    | none => (.comment, rest)

/-- The entry in front of a text and what follows its line. What cannot be read is skipped up to
    the end of the line where reading stopped. -/
def entry (s : Text) : Entry × Text :=
  let s := skipExport s
  match name? s with
  | none => (.unreadable, afterLine s)
  | some (name, s) =>
    match skipInline s with
    | .char '=' :: rest =>
      let rest := skipInline rest
      match value? rest with
      | none => (.unreadable, afterLine rest)
      | some (value, rest) => closed name (some value) rest
    | s => closed name none s

/-- The entries of a text in order, each with the text from the end of the entry before it on;
    `fuel` bounds how many lines there are. -/
def entries : Nat → Text → List (Text × Entry)
  | 0, _ => []
  | fuel + 1, s =>
    match s.dropWhile Text.isBlankOrSeparator with
    | [] => []
    | front =>
      let (found, rest) := entry front
      (s, found) :: entries fuel rest

/-- A text without the byte order mark that may stand in front. -/
def dropMark : Text → Text
  | .char '\uFEFF' :: rest => rest
  | s => s

/-- The entries of a file. -/
def entriesOf (file : Text) : List (Text × Entry) :=
  let s := Text.unifyNewlines (dropMark file)
  entries (s.length + 1) s

/-- The number of line feeds in a text. -/
def lineFeeds (s : Text) : Nat := s.count (.char '\n')

/-- The lines of a file, counted from 1, behind which something stands that cannot be read. Blank
    lines in front of it count with it. -/
def unreadableLines (file : Text) : List Nat :=
  let all := lineFeeds (Text.unifyNewlines (dropMark file))
  ((entriesOf file).filter fun (_, e) => !e.isReadable).map fun (rest, _) => all - lineFeeds rest + 1

/-! ## References -/

/-- Behind `$` and a brace: the name, the value where the name is not bound, what follows. -/
def reference? (s : Text) : Option (Text × Text × Text) :=
  let (name, rest) := s.span fun c => c != .char '}' && c != .char ':'
  match rest with
  | .char '}' :: after => some (name, [], after)
  | .char ':' :: .char '-' :: rest =>
    match rest.span (· != .char '}') with
    | (default, _ :: after) => some (name, default, after)
    | (_, []) => none
  | _ => none

/-- A value with its references replaced; `fuel` bounds the length of the value. -/
def resolve (bound : Text → Option (Option Text)) : Nat → Text → Text
  | 0, s => s
  | _ + 1, [] => []
  | fuel + 1, .char '$' :: .char '{' :: rest =>
    match reference? rest with
    | some (name, default, after) => ((bound name).getD (some default)).getD [] ++ resolve bound fuel after
    | none => .char '$' :: .char '{' :: resolve bound fuel rest
  | fuel + 1, c :: rest => c :: resolve bound fuel rest

def lookup? (name : Text) (found : List Binding) : Option (Option Text) := (found.find? (·.1 == name)).map (·.2)

/-- Binds a name, in place if it is bound already and at the end if not. -/
def put (b : Binding) : List Binding → List Binding
  | [] => [b]
  | c :: rest => if c.1 = b.1 then b :: rest else c :: put b rest

/-- Bindings with the references in their values replaced, `around` being bound outside the file. -/
def resolveAll (around : List (Text × Text)) (found : List Binding) : List Binding → List Binding
  | [] => found
  | (name, value) :: rest =>
    let bound (n : Text) := match lookup? n found with
      | some v => some v
      | none => (around.reverse.find? (·.1 == n)).map (some ·.2)
    resolveAll around (put (name, value.map fun v => resolve bound v.length v) found) rest

/-- The bindings that a file makes; of two of one name the later counts, in the place of the first. -/
def read (around : List (Text × Text)) (file : Text) : List Binding :=
  resolveAll around [] ((entriesOf file).filterMap (·.2.binding?))

end FieldForest.Bindings
