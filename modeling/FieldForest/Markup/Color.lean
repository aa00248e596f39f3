/-
  FieldForest.Markup.Color — the words that name a colour.

  A colour has a name of its own, a number from a palette, or the shares of red, green and
  blue in it, in hexadecimal or in decimal. Names come in families, the members of which are
  told apart by a number behind the family's name. All words are in lower case.
-/
import FieldForest.Text.Digits

namespace FieldForest.Markup

/-- Why a word names no colour. -/
inductive ColorFault where
  | unknown
  /-- A share of red, green or blue has no digits, or too many to be read. -/
  | unreadableShare

namespace Color

/-- The families of names, with the numbers of their members; a member may have none. -/
def families : List (String × List String) := [
    ("red", ["", "1", "3"]), ("green", ["", "1", "3", "4"]), ("yellow", ["", "1", "2", "3", "4"]),
    ("blue", ["", "1", "3"]), ("magenta", ["", "1", "2", "3"]), ("cyan", ["", "1", "2", "3"]),
    ("grey", ["0", "3", "7", "11", "15", "19", "23", "27", "30", "35", "37", "39", "42", "46", "50", "53", "54", "58", "62", "63", "66", "69", "70", "74", "78", "82", "84", "85", "89", "93", "100"]),
    ("gray", ["0", "3", "7", "11", "15", "19", "23", "27", "30", "35", "37", "39", "42", "46", "50", "53", "54", "58", "62", "63", "66", "69", "70", "74", "78", "82", "84", "85", "89", "93", "100"]),
    ("deep_sky_blue", ["1", "2", "3", "4"]), ("dodger_blue", ["1", "2", "3"]),
    ("spring_green", ["1", "2", "3", "4"]), ("turquoise", ["2", "4"]), ("deep_pink", ["1", "2", "3", "4"]),
    ("purple", ["", "3", "4"]), ("orange", ["1", "3", "4"]), ("medium_purple", ["", "1", "2", "3", "4"]),
    ("slate_blue", ["1", "3"]), ("royal_blue", ["1"]), ("chartreuse", ["1", "2", "3", "4"]),
    ("dark_sea_green", ["", "1", "2", "3", "4"]), ("pale_turquoise", ["1", "4"]),
    ("steel_blue", ["", "1", "3"]), ("sky_blue", ["1", "2", "3"]), ("pale_green", ["1", "3"]),
    ("sea_green", ["1", "2", "3"]), ("aquamarine", ["1", "3"]), ("dark_slate_gray", ["1", "2", "3"]),
    ("light_pink", ["1", "3", "4"]), ("plum", ["1", "2", "3", "4"]), ("wheat", ["1", "4"]),
    ("dark_olive_green", ["1", "2", "3"]), ("light_sky_blue", ["1", "3"]), ("dark_orange", ["", "3"]),
    ("indian_red", ["", "1"]), ("hot_pink", ["", "2", "3"]), ("medium_orchid", ["", "1", "3"]),
    ("light_salmon", ["1", "3"]), ("gold", ["1", "3"]), ("navajo_white", ["1", "3"]),
    ("light_steel_blue", ["", "1", "3"]), ("light_cyan", ["1", "3"]), ("orchid", ["", "1", "2"]),
    ("pink", ["1", "3"]), ("light_goldenrod", ["1", "2", "3"]), ("misty_rose", ["1", "3"]),
    ("thistle", ["1", "3"]), ("khaki", ["1", "3"]), ("light_yellow", ["3"]), ("honeydew", ["2"]),
    ("orange_red", ["1"]), ("salmon", ["1"]), ("pale_violet_red", ["1"]), ("cornsilk", ["1"])]

/-- The names that stand alone. -/
def names : List String := [
    "default", "black", "white", "bright_black", "bright_red", "bright_green", "bright_yellow", "bright_blue",
    "bright_magenta", "bright_cyan", "bright_white", "navy_blue", "dark_blue", "dark_green", "dark_cyan",
    "light_sea_green", "dark_turquoise", "medium_spring_green", "dark_red", "blue_violet", "cornflower_blue",
    "cadet_blue", "medium_turquoise", "dark_magenta", "dark_violet", "light_slate_grey", "light_slate_gray",
    "light_slate_blue", "light_green", "medium_violet_red", "dark_goldenrod", "rosy_brown", "dark_khaki",
    "green_yellow", "violet", "tan", "light_coral", "sandy_brown"]

def isName (word : Text) : Bool :=
  names.any (fun name => (name : Text) == word) ||
    families.any fun (family, numbers) => numbers.any fun number => (family ++ number : Text) == word

/-- The highest number of the palette, and the highest share. -/
def highest : Nat := 255

/-- The text between a word and a closing parenthesis at the end. -/
def argument? (name word : Text) : Option Text :=
  match (name.isPrefixOf? word).map List.reverse with
  | some (.char ')' :: inside) => some inside.reverse
  | _ => none

def isHexDigit (c : CodePoint) : Bool := ("0123456789abcdef" : Text).contains c

/-- Six hexadecimal digits behind a number sign. -/
def isHexadecimal : Text → Bool
  | .char '#' :: digits => digits.length == 6 && digits.all isHexDigit
  | _ => false

/-- A number from the palette, with up to three digits. -/
def isNumber (word : Text) : Bool :=
  match (argument? "color(" word).map Text.spanDigits with
  | some (digits, []) => 1 ≤ digits.length && digits.length ≤ 3 && Nat.ofDigitChars 10 digits 0 ≤ highest
  | _ => false

/-- A share in decimal, with digits of any script. -/
def share? (t : Text) : Option Nat :=
  if t.isEmpty || decide (Text.mostDigits < t.length) then none else Text.digitsValue? 0 t

/-- Three shares in decimal. -/
def readShares (inside : Text) : Except ColorFault Unit :=
  if inside.all (fun c => c = .char ',' || (Text.digitValue? c).isSome) then
    match inside.splitOn (.char ',') with
    | [red, green, blue] =>
      match share? red, share? green, share? blue with
      | some r, some g, some b => if max r (max g b) ≤ highest then .ok () else .error .unknown
      | _, _, _ => .error .unreadableShare
    | _ => .error .unknown
  else .error .unknown

/-- Whether a word names a colour. -/
def check (word : Text) : Except ColorFault Unit :=
  if isName word || isHexadecimal word || isNumber word then .ok ()
  else match argument? "rgb(" word with
    | some inside => readShares inside
    | none => .error .unknown

end Color

end FieldForest.Markup
