/-
  FieldForest.Markup.Basic — texts with tags, and texts written so that nothing in them is a tag.

  A tag is an opening bracket, one of the characters that may begin a tag, and everything up
  to the next closing bracket, as long as no other opening bracket comes first. Backslashes
  right in front of it belong to it: two of them stand for one, and one left over takes the
  meaning of a tag away. A bracket that opens no tag may also have a backslash in front.
-/
import FieldForest.Text.Basic

namespace FieldForest.Markup

/-- A piece of marked-up text; `backslashes` are those right in front of its bracket. -/
inductive Token where
  | plain (c : CodePoint)
  | bracket (backslashes : Nat)
  | tag (backslashes : Nat) (inside : Text)

/-- The characters that a tag may begin with. -/
def beginsTag (c : Char) : Bool := c.isLower || c == '#' || c == '/' || c == '@'

/-- A text up to the closing bracket that comes before any opening one, and what follows it. -/
def untilClosing : Text → Option (Text × Text)
  | [] => none
  | .char ']' :: rest => some ([], rest)
  | .char '[' :: _ => none
  | c :: rest => (untilClosing rest).map fun (inside, after) => (c :: inside, after)

/-- Behind an opening bracket: the inside of the tag that it opens, and what follows the tag. -/
def tagBehind? : Text → Option (Text × Text)
  | .char c :: rest =>
    if beginsTag c then (untilClosing rest).map fun (inside, after) => (.char c :: inside, after) else none
  | _ => none

theorem length_of_untilClosing {s inside after : Text} (h : untilClosing s = some (inside, after)) :
    after.length < s.length := by
  fun_induction untilClosing s generalizing inside after with
  | case1 => simp at h
  | case2 rest => simp_all
  | case3 => simp at h
  | case4 c rest _ _ ih =>
    obtain ⟨⟨i, a⟩, ha, he⟩ := Option.map_eq_some_iff.1 h
    obtain ⟨-, rfl⟩ := Prod.mk.inj he
    exact Nat.lt_succ_of_lt (ih ha)

theorem length_of_tagBehind {s inside after : Text} (h : tagBehind? s = some (inside, after)) :
    after.length < s.length := by
  unfold tagBehind? at h
  split at h
  · split at h
    · obtain ⟨⟨i, a⟩, ha, he⟩ := Option.map_eq_some_iff.1 h
      obtain ⟨-, rfl⟩ := Prod.mk.inj he
      exact Nat.lt_succ_of_lt (length_of_untilClosing ha)
    · simp at h
  · simp at h

def backslashes (n : Nat) : List Token := List.replicate n (.plain (.char '\\'))

/-- The tokens of a text in front of which `pending` backslashes stand. -/
def tokensBehind (pending : Nat) : Text → List Token
  | [] => backslashes pending
  | .char '\\' :: rest => tokensBehind (pending + 1) rest
  | .char '[' :: rest =>
    match h : tagBehind? rest with
    | some (inside, after) =>
      have : after.length < rest.length := length_of_tagBehind h
      .tag pending inside :: tokensBehind 0 after
    | none => .bracket pending :: tokensBehind 0 rest
  | c :: rest => backslashes pending ++ .plain c :: tokensBehind 0 rest
termination_by s => s.length

def tokens (s : Text) : List Token := tokensBehind 0 s

/-- A tag as it is written. -/
def tagText (inside : Text) : Text := .char '[' :: inside ++ [.char ']']

/-- The stretches of text that tokens leave between the tags; `part`, read backwards, is what stands
    in front since the last of them. A tag that is shown is a stretch of its own. -/
def piecesBehind (part : Text) : List Token → List Text
  | [] => [part.reverse]
  | .plain c :: rest => piecesBehind (c :: part) rest
  | .bracket n :: rest => piecesBehind (.char '[' :: List.replicate (n - 1) (.char '\\') ++ part) rest
  | .tag n inside :: rest =>
    part.reverse :: List.replicate (n / 2) (.char '\\') :: (if n % 2 = 1 then [tagText inside] else []) ++
      piecesBehind [] rest

/-- The stretches of text that a marked-up text leaves between its tags. -/
def pieces (s : Text) : List Text := piecesBehind [] (tokens s)

/-- A token with its backslashes doubled and one more put in front if it is a tag. -/
def Token.escaped : Token → Text
  | .plain c => [c]
  | .bracket n => List.replicate n (.char '\\') ++ [.char '[']
  | .tag n inside => List.replicate (2 * n + 1) (.char '\\') ++ tagText inside

/-- Ends with a backslash that has none in front of it. -/
def endsInBackslash (s : Text) : Bool :=
  match s.reverse with
  | .char '\\' :: .char '\\' :: _ => false
  | .char '\\' :: _ => true
  | _ => false

/-- A text written so that none of it is taken for a tag, nor what is put behind it. -/
def escape (s : Text) : Text :=
  let escaped := (tokens s).flatMap Token.escaped
  if endsInBackslash escaped then escaped ++ [.char '\\'] else escaped

end FieldForest.Markup
