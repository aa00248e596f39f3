/-
  FieldForest.Markup.Style — styles and the words that describe them.

  A description names qualities that a style has or, behind `not`, lacks, the colour of the
  letters, the colour `on` which they stand, and a `link`. What comes later overrides what
  comes earlier. Two descriptions mean the same style if they have the same canonical form, in
  which every quality has one name and a place of its own; words that describe no style stand
  for themselves, in lower case.
-/
import FieldForest.Markup.Color
import FieldForest.Text.Case

namespace FieldForest.Markup

/-- Why words describe no style. -/
inductive StyleFault where
  | unknown
  /-- A colour has a share that cannot be read. -/
  | unreadableShare

def StyleFault.ofColorFault : ColorFault → StyleFault
  | .unknown => .unknown
  | .unreadableShare => .unreadableShare

/-- A style; a quality that it neither has nor lacks is left as it is. -/
structure Style where
  qualities : List (Text × Bool)
  color : Option Text
  background : Option Text
  link : Option Text

namespace Style

def blank : Style := ⟨[], none, none, none⟩

/-- The qualities, in the order of the canonical form. -/
def qualityNames : List Text :=
  ["bold", "dim", "italic", "underline", "blink", "blink2", "reverse", "conceal", "strike", "underline2",
    "frame", "encircle", "overline"]

/-- Short names of qualities. -/
def shortNames : List (Text × Text) :=
  [("b", "bold"), ("d", "dim"), ("i", "italic"), ("u", "underline"), ("r", "reverse"), ("c", "conceal"),
    ("s", "strike"), ("uu", "underline2"), ("o", "overline")]

/-- The quality that a word names. -/
def quality? (word : Text) : Option Text :=
  if qualityNames.contains word then some word else shortNames.lookup word

/-- The style with or without a quality. -/
def withQuality (s : Style) (name : Text) (has : Bool) : Style := { s with qualities := (name, has) :: s.qualities }

/-- The colour that a word names, in lower case. -/
def readColor (word : Text) : Except StyleFault Text :=
  (Color.check word.lower).mapError .ofColorFault |>.map fun _ => word.lower

/-- Words that say what the next word is about. -/
inductive Lead where
  | on
  | without
  | link

def leads : List (Text × Lead) := [("on", .on), ("not", .without), ("link", .link)]

/-- The style with what a word behind a leading word says. -/
def withLed (s : Style) (word : Text) : Lead → Except StyleFault Style
  | .on => (readColor word).map fun color => { s with background := some color }
  | .without =>
    match quality? word with
    | some name => .ok (s.withQuality name false)
    | none => .error .unknown
  | .link => .ok { s with link := some word }

/-- The style with what a word says on its own. -/
def withWord (s : Style) (word : Text) : Except StyleFault Style :=
  match quality? word.lower with
  | some name => .ok (s.withQuality name true)
  | none => (readColor word).map fun color => { s with color := some color }

/-- The style with what words say. -/
def withWords (s : Style) : List Text → Except StyleFault Style
  | [] => .ok s
  | [word] => if (leads.lookup word.lower).isSome then .error .unknown else s.withWord word
  | word :: next :: rest =>
    match leads.lookup word.lower with
    | some lead =>
      match s.withLed next lead with
      | .ok s => withWords s rest
      | .error e => .error e
    | none =>
      match s.withWord word with
      | .ok s => withWords s (next :: rest)
      | .error e => .error e

/-- The style that a description means; `none` on its own means none. -/
def ofText (description : Text) : Except StyleFault Style :=
  if Text.trim description = "none" then .ok blank else blank.withWords (Text.words description)

def qualityText (s : Style) (name : Text) : Option Text :=
  (s.qualities.lookup name).map fun has => if has then name else "not " ++ name

/-- The canonical form of a style. -/
def text (s : Style) : Text :=
  let background : Option Text := s.background.map fun color => "on " ++ color
  let link : Option Text := s.link.map fun target => "link " ++ target
  let parts := qualityNames.filterMap s.qualityText ++ s.color.toList ++ background.toList ++ link.toList
  if parts.isEmpty then "none" else List.intercalate " " parts

/-- The canonical form of a description; only a share that cannot be read is at fault. -/
def canonical (description : Text) : Except StyleFault Text :=
  match ofText description with
  | .ok s => .ok s.text
  | .error .unknown => .ok (Text.trim description).lower
  | .error .unreadableShare => .error .unreadableShare

end Style

end FieldForest.Markup
