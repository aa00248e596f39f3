/-
  FieldForest.Console — what a terminal without colours is given.

  Bells, backspaces, vertical tabs, form feeds and carriage returns are dropped, tabs are
  filled up with spaces to the next multiple of eight cells, and every print ends its line.
  A line is broken only where it has to keep to the columns and is too wide for them; blanks
  at the end of one that is not may go. Where a line is broken, and which codes stand for
  emoji, is up to the terminal. Styles are not shown, but they are looked up for all that is
  shown, and one of them may be impossible to read.
-/
import FieldForest.Markup.Marked
import FieldForest.Text.Blank
import FieldForest.Text.Cells
import FieldForest.Text.Quoted

namespace FieldForest

/-- What one terminal does in its own way. The code of an emoji stands between two colons and has no blank in it,
    and an emoji is made of characters. -/
structure Terminal where
  /-- How many columns it has. -/
  columns : Nat
  /-- A text without markup, with emoji for their codes. -/
  emoji : Text → Text
  /-- The lines that come of a line which is wider than its room. -/
  broken : Nat → Text → List Text
  emoji_of_count_le : ∀ t : Text, t.count (.char ':') ≤ 1 → emoji t = t
  emoji_blank : ∀ (s t : Text) (c : Char), c = ' ' ∨ c = '\n' → emoji (s ++ .char c :: t) = emoji s ++ .char c :: emoji t
  emoji_chars : ∀ t : Text, t.hasLoneSurrogate = false → (emoji t).hasLoneSurrogate = false

namespace Console

def isDropped (c : CodePoint) : Bool :=
  c = .char '\x07' || c = .char '\x08' || c = .char '\x0B' || c = .char '\x0C' || c = .char '\r'

/-- A text without what is dropped. -/
def kept (t : Text) : Text := t.filter (!isDropped ·)

/-- The spaces that stand for a tab behind `part`, which begins at a multiple of eight cells. -/
def tabSpaces (part : Text) : Text :=
  let cells := Text.cells (part ++ [.char ' '])
  List.replicate (1 + (8 - cells % 8) % 8) (.char ' ')

/-- Fills tabs up; `part`, read backwards, is what stands in front since the last tab of the line. -/
def expandTabs (part : Text) : Text → Text
  | [] => []
  | .char '\t' :: rest => tabSpaces part.reverse ++ expandTabs [] rest
  | .char '\n' :: rest => .char '\n' :: expandTabs [] rest
  | c :: rest => c :: expandTabs (c :: part) rest

/-- A text as it is shown. -/
def shown (t : Text) : Text := expandTabs [] (kept t)

/-- Halves of surrogate pairs, which no terminal takes, written as escapes. -/
def withoutLoneSurrogates (t : Text) : Text := t.flatMap fun c =>
  if c.isLoneSurrogate then Text.hexEscape c.toNat else [c]

/-- A line without as many blanks at its end as there are code points in it beyond `room`. -/
def fitted (room : Nat) (line : Text) : Text :=
  let blanks := (line.reverse.takeWhile Text.isBlankOrSeparator).length
  line.take (line.length - min blanks (line.length - room))

/-- A line of text. -/
def line (t : Text) : Text := shown t ++ "\n"

end Console

namespace Terminal

/-- A terminal that knows no emoji and lets lines run on. -/
def plain : Terminal where
  columns := 80
  emoji t := t
  broken room line := [Console.fitted room line]
  emoji_of_count_le _ _ := rfl
  emoji_blank _ _ _ _ := rfl
  emoji_chars _ h := h

variable (terminal : Terminal)

/-- The lines that come of a line in so many columns. -/
def lines (room : Nat) (line : Text) : List Text :=
  if Text.cells line.trimEnd ≤ room then [Console.fitted room line] else terminal.broken room line

/-- What marked-up text leaves, with emoji for their codes. -/
def emojied (t : Text) : Text := (Markup.pieces t).flatMap terminal.emoji

end Terminal

namespace Console

/-- Whether the style of a stretch is looked up where `whole` is shown. A stretch that covers
    nothing, or nothing but line feeds, gets lost where a text is taken apart at line feeds or tabs. -/
def isLookedUp (whole : Text) (s : Markup.Stretch) : Bool :=
  (kept s.covered).any (· ≠ .char '\n') || !whole.any fun c => c = .char '\n' || c = .char '\t'

/-- Whether a style can be looked up. -/
def isReadable (style : Text) : Bool :=
  match Markup.Style.ofText style with
  | .error .unreadableShare => false
  | _ => true

/-- Marked-up text as it is shown. -/
def shownMarked (terminal : Terminal) (t : Text) : Except Markup.MarkupError Text := do
  let marked ← Markup.read t
  if (marked.stretches.filter (isLookedUp marked.text)).all fun s => isReadable s.style then
    return shown (terminal.emojied t)
  else .error .unreadableShare

/-- A line of marked-up text. -/
def markedLine (terminal : Terminal) (t : Text) : Except Markup.MarkupError Text :=
  (shownMarked terminal t).map (· ++ "\n")

end Console

end FieldForest
