/-
  FieldForest.Proofs.Value.Shown — what shown values look like.

  Whatever a value holds, it is shown with printable code points only: a string stands between quotes
  with all others escaped, and what is put around values is plain. So a shown value is one line
  and holds no half of a surrogate pair. It ends in a letter, a digit, a quote or a closing
  bracket, and so neither in a blank nor in a backslash; and so do the options of a field.

  Proved:
  - `isPrintable_of_isVisible` / `isPrintable_loneSurrogate`: visible characters are printable, halves of
    surrogate pairs are not.
  - `visible_numberText` / `endsIn_numberText`: what numbers are written with, and what they end in.
  - `printable_quoted`: strings between quotes.
  - `Value.printable_display` / `Value.endsIn_display`: shown values.
  - `endsIn_settingsText`: the options of a field.
-/
import FieldForest.Declaration.Reading
import FieldForest.Forest.Listing
import FieldForest.Proofs.Json.WrittenNumbers
import FieldForest.Proofs.Text.Joined
import Mathlib.Data.List.Chain
import Mathlib.Tactic.SplitIfs

namespace FieldForest

/-! ## Printable code points -/

namespace Text

/-- A character of ASCII that is neither a control character nor the space. -/
def isVisible (c : CodePoint) : Bool := decide (0x20 < c.toNat ∧ c.toNat < 0x7F)

theorem isPrintable_of_isVisible {c : CodePoint} (h : isVisible c = true) : isPrintable c = true := by
  have htable : unprintableRanges = (0x0, 0x1F) :: (0x7F, 0xA0) :: unprintableRanges.drop 2 := rfl
  obtain ⟨hlow, hhigh⟩ := of_decide_eq_true h
  rw [isPrintable, htable, inRanges, if_neg (by omega), if_neg (by omega), inRanges, if_pos hhigh]
  rfl

theorem inRanges_of_mem {n low high : Nat} {ranges : List (Nat × Nat)}
    (hsorted : ranges.Pairwise fun r s => r.1 ≤ s.1) (hmem : (low, high) ∈ ranges) (hlow : low ≤ n) (hhigh : n ≤ high) :
    inRanges n ranges = true := by
  induction ranges with
  | nil => cases hmem
  | cons r ranges ih =>
    obtain ⟨hr, hsorted⟩ := List.pairwise_cons.mp hsorted
    rw [inRanges]
    rcases List.mem_cons.mp hmem with rfl | hmem
    · rw [if_neg (by omega), if_pos hhigh]
    · have hbegin : r.1 ≤ low := hr _ hmem
      rw [if_neg (by omega)]
      split
      · rfl
      · exact ih hsorted hmem

/-- Halves of surrogate pairs lie in the range from the Hangul letters to the private use area. -/
theorem isPrintable_loneSurrogate (n : Fin 2048) : isPrintable (.loneSurrogate n) = false := by
  have hchain : unprintableRanges.IsChain fun r s => r.1 ≤ s.1 := by decide +kernel
  have hsorted : unprintableRanges.Pairwise fun r s => r.1 ≤ s.1 := by
    have : IsTrans (Nat × Nat) fun r s => r.1 ≤ s.1 := ⟨fun _ _ _ => Nat.le_trans⟩
    exact List.isChain_iff_pairwise.mp hchain
  have hmem : (0xD7FC, 0xF8FF) ∈ unprintableRanges := by decide +kernel
  have hn : CodePoint.toNat (.loneSurrogate n) = 0xD800 + n.val := rfl
  rw [isPrintable, inRanges_of_mem hsorted hmem (by omega) (by omega)]
  rfl

theorem hasLoneSurrogate_of_printable {t : Text} (h : t.all isPrintable = true) : t.hasLoneSurrogate = false := by
  rw [List.all_eq_true] at h
  rw [hasLoneSurrogate, List.any_eq_false]
  intro c hc
  cases c with
  | char c => exact Bool.false_ne_true
  | loneSurrogate n => exact absurd (h _ hc) (by rw [isPrintable_loneSurrogate]; exact Bool.false_ne_true)

theorem newline_not_mem_of_printable {t : Text} (h : t.all isPrintable = true) : .char '\n' ∉ t := by
  intro hc
  cases List.all_eq_true.mp h _ hc

end Text

/-! ## The characters of numbers -/

namespace Json

open Text (isVisible endsIn endsIn_append)

theorem isVisible_digit {c : Char} (h : c.isDigit = true) : isVisible (.char c) = true := by
  simp only [Char.isDigit, Bool.and_eq_true, decide_eq_true_eq, ge_iff_le, UInt32.le_iff_toNat_le] at h
  refine decide_eq_true ?_
  show 0x20 < c.val.toNat ∧ c.val.toNat < 0x7F
  have hzero : '0'.val.toNat = 48 := rfl
  have hnine : '9'.val.toNat = 57 := rfl
  omega

section

variable {ds : List Char} (hds : ∀ c ∈ ds, c.isDigit = true)

include hds

theorem visible_digits : (Text.ofChars ds).all isVisible = true := by
  rw [List.all_eq_true, Text.ofChars, List.forall_mem_map]
  exact fun c hc => isVisible_digit (hds c hc)

theorem visible_fractionText : (Text.ofChars (fractionText ds)).all isVisible = true := by
  cases ds with
  | nil => rfl
  | cons c cs =>
    show (isVisible (.char '.') && (Text.ofChars (c :: cs)).all isVisible) = true
    rw [visible_digits hds]
    rfl

end

theorem visible_signed (negative : Bool) (t : Text) : (signed negative t).all isVisible = t.all isVisible := by
  cases negative <;> rfl

theorem visible_exponentText {exponent : Int} {t : Text} (h : ExponentText exponent t) : t.all isVisible = true := by
  cases h with
  | none => rfl
  | @some mark negative sign ds hmark hsign _ hds =>
    have hm : isVisible (.char mark) = true := by rcases hmark with rfl | rfl <;> rfl
    have hs : sign.all isVisible = true := by cases hsign <;> rfl
    rw [List.all_cons, List.all_append, hm, hs, visible_digits hds]
    rfl

/-- Numbers are written with visible characters. -/
theorem visible_numberText {limits : Limits} {x : Json} {t : Text} (h : NumberText limits x t) :
    t.all isVisible = true := by
  cases h with
  | int negative hds _ => rw [visible_signed, visible_digits hds.digits]
  | float negative hds hfs hexponent _ _ =>
    rw [visible_signed, List.all_append, Text.ofChars_append, List.all_append, visible_digits hds.digits,
      visible_fractionText hfs, visible_exponentText hexponent]
    rfl

theorem visible_ofInt (n : Int) : (Text.ofInt n).all isVisible = true := by
  rw [ofInt_eq_signed, visible_signed, visible_digits (isDigit_toDigits n.natAbs)]

end Json

namespace Text

theorem printable_of_visible {t : Text} (h : t.all isVisible = true) : t.all isPrintable = true := by
  rw [List.all_eq_true] at h ⊢
  exact fun c hc => isPrintable_of_isVisible (h c hc)

theorem printable_ofNat (n : Nat) : (ofNat n).all isPrintable = true :=
  printable_of_visible (Json.visible_digits (isDigit_toDigits n))

/-! ## Strings between quotes -/

theorem printable_toDigits_hex (n : Nat) : (ofChars (Nat.toDigits 16 n)).all isPrintable = true := by
  have hdigit : ∀ d < 16, isPrintable (.char (Nat.digitChar d)) = true := by decide
  induction n using Nat.strongRecOn with
  | ind n ih =>
    by_cases hn : n < 16
    · rw [Nat.toDigits_of_lt_base hn]
      simpa [ofChars] using hdigit n hn
    · have hlast := hdigit (n % 16) (Nat.mod_lt n (by decide))
      rw [Nat.toDigits_of_base_le (by decide) (by omega), ofChars_append, List.all_append, ih (n / 16) (by omega)]
      simpa [ofChars] using hlast

theorem printable_ofHex (width n : Nat) : (ofHex width n).all isPrintable = true := by
  have hzeros (k : Nat) : (ofChars (List.replicate k '0')).all isPrintable = true := by
    rw [ofChars, List.map_replicate, List.all_replicate]
    split <;> rfl
  rw [ofHex, List.leftpad, ofChars_append, List.all_append, hzeros, printable_toDigits_hex]
  rfl

theorem printable_hexEscape (n : Nat) : (hexEscape n).all isPrintable = true := by
  unfold hexEscape
  split_ifs <;> rw [List.all_append, printable_ofHex] <;> rfl

theorem printable_escapeIn {mark : Char} (hmark : isPrintable (.char mark) = true) (c : CodePoint) :
    (escapeIn mark c).all isPrintable = true := by
  unfold escapeIn
  split_ifs with hspecial hnewline hreturn htab hprintable
  · rcases hspecial with rfl | rfl
    · rfl
    · rw [List.all_cons, List.all_cons, hmark]
      rfl
  · rfl
  · rfl
  · rfl
  · rw [List.all_cons, hprintable]
    rfl
  · exact printable_hexEscape _

theorem quoteMark_cases (t : Text) : t.quoteMark = '"' ∨ t.quoteMark = '\'' := by
  unfold quoteMark
  split
  · exact .inl rfl
  · exact .inr rfl

/-- Between quotes, all that is not printable is escaped. -/
theorem printable_quoted (t : Text) : t.quoted.all isPrintable = true := by
  have hmark : isPrintable (.char t.quoteMark) = true := by
    rcases t.quoteMark_cases with h | h <;> rw [h] <;> rfl
  have hbody : List.all (t.flatMap (escapeIn t.quoteMark)) isPrintable = true := by
    rw [List.all_flatMap, List.all_eq_true]
    exact fun c _ => printable_escapeIn hmark c
  unfold quoted
  simp only [List.cons_append, List.all_cons, List.all_append, List.all_nil, hmark, hbody, Bool.and_true]

/-! ## Parts side by side -/

section

variable {parts : List Text} (h : ∀ t ∈ parts, t.all isPrintable = true)

include h

theorem printable_commaSeparated : (commaSeparated parts).all isPrintable = true :=
  all_intercalate rfl h

theorem printable_bracketed : (bracketed parts).all isPrintable = true := by
  rw [bracketed, List.all_append, List.all_append, printable_commaSeparated h]
  rfl

theorem printable_braced : (braced parts).all isPrintable = true := by
  rw [braced, List.cons_append, List.all_cons, List.all_append, printable_commaSeparated h]
  rfl

theorem printable_fixed_braced : (fixed (braced parts)).all isPrintable = true := by
  rw [fixed, List.all_append, List.all_append, printable_braced h]
  rfl

theorem printable_parenthesized : (parenthesized parts).all isPrintable = true := by
  unfold parenthesized
  split
  · rename_i part
    rw [List.all_append, List.all_append, h part (List.mem_singleton_self part)]
    rfl
  · rw [List.all_append, List.all_append, printable_commaSeparated h]
    rfl

end

end Text

/-! ## Values -/

open Text

theorem Declaration.printable_display (d : Declaration) : d.display.all isPrintable = true := by
  unfold display
  dsimp only
  split <;> rw [List.all_append, List.all_append, List.all_append, printable_ofNat] <;> rfl

theorem printable_ofBool (b : Bool) : (Text.ofBool b).all isPrintable = true := by
  cases b <;> rfl

/-- A finite number is shown as JSON writes it. -/
theorem Json.numberText_displayed (limits : Limits) (hplaces : limits.places = none) (negative : Bool)
    (size : Magnitude) : NumberText limits (.float (.finite negative size)) (Binary64.finite negative size).displayed :=
  numberText_writeFinite DecimalStyle.displayed negative size (Limits.takes_of_places hplaces _)

theorem Binary64.printable_displayed (x : Binary64) : x.displayed.all isPrintable = true := by
  cases x with
  | nan => rfl
  | infinite negative => cases negative <;> rfl
  | finite negative size =>
    exact printable_of_visible (Json.visible_numberText (Json.numberText_displayed ⟨0, 0, none, 0⟩ rfl negative size))

mutual

/-- A shown value holds printable code points only, whatever the value holds. -/
theorem Value.printable_display : ∀ v : Value, v.display.all isPrintable = true
  | .none => rfl
  | .bool b => printable_ofBool b
  | .int n => printable_of_visible (Json.visible_ofInt n)
  | .float x => x.printable_displayed
  | .text t => t.printable_quoted
  | .list elements => printable_bracketed (Value.printable_displayAll elements)
  | .tuple elements => printable_parenthesized (Value.printable_displayAll elements)
  | .dict entries => printable_braced (Value.printable_displayEntries entries)
  | .fixed entries => printable_fixed_braced (Value.printable_displayEntries entries)
  | .item i => i.printable_display
  | .nested body => body.printable_display
  | .field f => f.printable_display

theorem Value.printable_displayAll : ∀ xs : List Value, ∀ t ∈ Value.displayAll xs, t.all isPrintable = true
  | [] => List.forall_mem_nil _
  | x :: xs => List.forall_mem_cons.mpr ⟨x.printable_display, Value.printable_displayAll xs⟩

theorem Value.printable_displayEntries :
    ∀ entries : List (Value × Value), ∀ t ∈ Value.displayEntries entries, t.all isPrintable = true
  | [] => List.forall_mem_nil _
  | (k, v) :: rest => by
    refine List.forall_mem_cons.mpr ⟨?_, Value.printable_displayEntries rest⟩
    rw [List.all_append, List.all_append, k.printable_display, v.printable_display]
    rfl

theorem Value.printable_displayOptions :
    ∀ options : List (Text × Value), ∀ t ∈ Value.displayOptions options, t.all isPrintable = true
  | [] => List.forall_mem_nil _
  | (k, v) :: rest => by
    refine List.forall_mem_cons.mpr ⟨?_, Value.printable_displayOptions rest⟩
    rw [List.all_append, List.all_append, k.printable_quoted, v.printable_display]
    rfl

theorem Item.printable_display : ∀ i : Item, i.display.all isPrintable = true
  | .statement keyword args => by
    have hargs := printable_bracketed (Value.printable_displayAll args)
    rw [Item.display]
    simp only [List.all_append, keyword.printable_quoted, hargs]
    rfl
  | .block items => by
    have hitems := printable_bracketed (Item.printable_displayAll items)
    rw [Item.display]
    simp only [List.all_append, hitems]
    rfl

theorem Item.printable_displayAll : ∀ is : List Item, ∀ t ∈ Item.displayAll is, t.all isPrintable = true
  | [] => List.forall_mem_nil _
  | i :: is => List.forall_mem_cons.mpr ⟨i.printable_display, Item.printable_displayAll is⟩

theorem Field.printable_display : ∀ f : Field, f.display.all isPrintable = true
  | .mk id type leading required trailing fields => by
    have hfields := printable_parenthesized (Field.printable_displayAll fields)
    have hflag : (Field.flagKey.quoted ++ ": " ++ Text.ofBool required : Text).all isPrintable = true := by
      rw [List.all_append, List.all_append, Field.flagKey.printable_quoted, printable_ofBool]
      rfl
    have hoptions := List.forall_mem_append.mpr ⟨Value.printable_displayOptions leading,
      List.forall_mem_cons.mpr ⟨hflag, Value.printable_displayOptions trailing⟩⟩
    rw [Field.display]
    simp only [List.all_append, id.printable_quoted, type.printable_quoted, printable_fixed_braced hoptions, hfields]
    rfl

theorem Field.printable_displayAll : ∀ fs : List Field, ∀ t ∈ Field.displayAll fs, t.all isPrintable = true
  | [] => List.forall_mem_nil _
  | f :: fs => List.forall_mem_cons.mpr ⟨f.printable_display, Field.printable_displayAll fs⟩

end

/-! ## What shown values end in -/

/-- A letter, a digit, a quote or a closing bracket. -/
def CodePoint.isClosing : CodePoint → Bool
  | .char c => c.isAlphanum || ['\'', '"', ']', ')', '}'].contains c
  | .loneSurrogate _ => false

/-- A closing code point is no blank. -/
theorem CodePoint.isBlankOrSeparator_of_isClosing {c : CodePoint} (h : c.isClosing = true) :
    isBlankOrSeparator c = false := by
  have htable : ∀ n ∈ blanks ++ separators, isClosing (.char (Char.ofNat n)) = false := by decide
  cases c with
  | loneSurrogate n => cases h
  | char c =>
    rw [Bool.eq_false_iff]
    intro hblank
    have hmem : c.toNat ∈ blanks ++ separators := by simpa [isBlankOrSeparator, isBlank, CodePoint.toNat] using hblank
    have hnot := htable _ hmem
    rw [Char.ofNat_toNat, h] at hnot
    cases hnot

open CodePoint (isClosing)

theorem Text.trimEnd_of_endsIn {t : Text} (h : t.endsIn isClosing = true) : t.trimEnd = t := by
  refine trimEnd_of_last fun c hc => CodePoint.isBlankOrSeparator_of_isClosing ?_
  rwa [endsIn, Option.mem_def.mp hc, Option.any_some] at h

namespace Json

/-- Digits end in a digit, whatever stands in front of them. -/
theorem endsIn_digits {ds : List Char} (hne : ds ≠ []) (h : ∀ c ∈ ds, c.isDigit = true) (front : Text) :
    endsIn isClosing (front ++ Text.ofChars ds) = true := by
  refine endsIn_append ?_ front
  have hlast : isClosing (.char (ds.getLast hne)) = true := by
    rw [isClosing, Char.isAlphanum, h _ (List.getLast_mem hne), Bool.or_true, Bool.true_or]
  rw [endsIn, Text.ofChars, List.getLast?_map, List.getLast?_eq_some_getLast hne]
  exact hlast

theorem endsIn_signed (negative : Bool) {t : Text} (h : endsIn isClosing t = true) :
    endsIn isClosing (signed negative t) = true := by
  cases negative
  · exact h
  · exact endsIn_append h [.char '-']

/-- A number ends in a digit: of its exponent, else behind its point, else in front of it. -/
theorem endsIn_numberText {limits : Limits} {x : Json} {t : Text} (h : NumberText limits x t) :
    endsIn isClosing t = true := by
  cases h with
  | int negative hds _ => exact endsIn_signed negative (endsIn_digits hds.ne_nil hds.digits [])
  | @float negative ds fs exponent tail hds hfs hexponent _ _ =>
    refine endsIn_signed negative ?_
    cases hexponent with
    | none =>
      rw [List.append_nil, Text.ofChars_append]
      cases fs with
      | nil =>
        rw [show Text.ofChars (fractionText []) = [] from rfl, List.append_nil]
        exact endsIn_digits hds.ne_nil hds.digits []
      | cons c cs =>
        have hfraction := endsIn_digits (List.cons_ne_nil c cs) hfs [.char '.']
        exact endsIn_append hfraction _
    | @some mark _ sign es _ _ hne hes => exact endsIn_append (endsIn_digits hne hes (.char mark :: sign)) _

theorem endsIn_ofInt (n : Int) : endsIn isClosing (Text.ofInt n) = true := by
  rw [ofInt_eq_signed]
  exact endsIn_signed _ (endsIn_digits Nat.toDigits_ne_nil (isDigit_toDigits n.natAbs) [])

end Json

theorem Binary64.endsIn_displayed (x : Binary64) : x.displayed.endsIn isClosing = true := by
  cases x with
  | nan => rfl
  | infinite negative => cases negative <;> rfl
  | finite negative size => exact Json.endsIn_numberText (Json.numberText_displayed ⟨0, 0, none, 0⟩ rfl negative size)

/-- A shown value ends in a letter, a digit, a quote or a closing bracket. -/
theorem Value.endsIn_display (v : Value) : v.display.endsIn isClosing = true := by
  cases v with
  | none => rfl
  | bool b => cases b <;> rfl
  | int n => exact Json.endsIn_ofInt n
  | float x => exact x.endsIn_displayed
  | text t =>
    have hmark : endsIn isClosing [.char t.quoteMark] = true := by
      rcases t.quoteMark_cases with h | h <;> rw [h] <;> rfl
    exact endsIn_append hmark _
  | list elements => exact endsIn_append (t := "]") rfl _
  | tuple elements =>
    rw [display]
    unfold parenthesized
    split
    · exact endsIn_append (t := ",)") rfl _
    · exact endsIn_append (t := ")") rfl _
  | dict entries => exact endsIn_append (t := [.char '}']) rfl _
  | fixed entries => exact endsIn_append (t := ")") rfl _
  | item i =>
    cases i with
    | statement keyword args => exact endsIn_append (t := ")") rfl _
    | block items => exact endsIn_append (t := ")") rfl _
  | nested body => exact endsIn_append (t := ">)") rfl _
  | field f =>
    cases f with
    | mk id type leading required trailing fields => exact endsIn_append (t := ")") rfl _

/-- The options of a field end as the last of their values does. -/
theorem Field.endsIn_settingsText {f : Field} (h : f.settings ≠ []) : f.settingsText.endsIn isClosing = true := by
  refine endsIn_intercalate (mt List.map_eq_nil_iff.mp h) ?_
  rw [List.forall_mem_map]
  intro o _
  exact endsIn_append o.2.endsIn_display _

end FieldForest
