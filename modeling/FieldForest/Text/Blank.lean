/-
  FieldForest.Text.Blank — blank code points, and texts without them at their ends.

  Two sets are in use. The blanks proper are the code points of the Unicode property
  White_Space. Where text is cut at its ends or split, the four information separators count
  as blank too.
-/
import FieldForest.Text.Basic

namespace FieldForest.Text

/-- The code points with the property White_Space. -/
def blanks : List Nat := [
    0x9, 0xA, 0xB, 0xC, 0xD, 0x20, 0x85, 0xA0, 0x1680, 0x2000, 0x2001, 0x2002, 0x2003, 0x2004, 0x2005, 0x2006,
    0x2007, 0x2008, 0x2009, 0x200A, 0x2028, 0x2029, 0x202F, 0x205F, 0x3000]

/-- The four information separators. -/
def separators : List Nat := [0x1C, 0x1D, 0x1E, 0x1F]

def isBlank (c : CodePoint) : Bool := blanks.contains c.toNat

def isBlankOrSeparator (c : CodePoint) : Bool := isBlank c || separators.contains c.toNat

/-- A text without the blanks and separators at its end. -/
def trimEnd (t : Text) : Text := (t.reverse.dropWhile isBlankOrSeparator).reverse

/-- A text that ends in no blank stays as it is. -/
theorem trimEnd_of_last {t : Text} (h : ∀ c ∈ t.getLast?, isBlankOrSeparator c = false) : t.trimEnd = t := by
  unfold trimEnd
  rw [← List.head?_reverse] at h
  cases hrev : t.reverse with
  | nil => simpa using hrev
  | cons c rest =>
    rw [hrev] at h
    rw [List.dropWhile_cons_of_neg (by simp [h c rfl]), ← hrev, List.reverse_reverse]

/-- Blanks behind a text are cut off with those at its end. -/
theorem trimEnd_append {tail : Text} (h : ∀ c ∈ tail, isBlankOrSeparator c = true) (t : Text) :
    trimEnd (t ++ tail) = trimEnd t := by
  have hfront : ∀ c ∈ tail.reverse, isBlankOrSeparator c = true := fun c hc => h c (List.mem_reverse.mp hc)
  rw [trimEnd, List.reverse_append, List.dropWhile_append_of_pos hfront, trimEnd]

/-- A text without the blanks and separators at either end. -/
def trim (t : Text) : Text := trimEnd (t.dropWhile isBlankOrSeparator)

/-- The words of a text, the longest stretches without blanks and separators; `word` is the one
    in front, read backwards. -/
def wordsBehind (word : Text) : Text → List Text
  | [] => if word.isEmpty then [] else [word.reverse]
  | c :: rest =>
    if !isBlankOrSeparator c then wordsBehind (c :: word) rest
    else if word.isEmpty then wordsBehind [] rest
    else word.reverse :: wordsBehind [] rest

def words (t : Text) : List Text := wordsBehind [] t

/-- A text without the blanks proper at either end. -/
def trimBlanks (t : Text) : Text := ((t.dropWhile isBlank).reverse.dropWhile isBlank).reverse

end FieldForest.Text
