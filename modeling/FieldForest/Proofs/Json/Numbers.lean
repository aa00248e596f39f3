/-
  FieldForest.Proofs.Json.Numbers — a number is read from each of its texts.

  A number is written with any sign, fraction and exponent that JSON has a form for, as long as
  a reader takes the places in front of its point. It ends where no digit, point or exponent
  can follow. A whole number has one text for its digits, as none but zero begins with a zero,
  so how long that text is does not depend on how the number is written.

  Proved:
  - `toDigits_ofDigitChars`: a numeral is what is written for its value.
  - `exponentPart?_of_exponentText`: an exponent is read from each of its texts.
  - `readNumber_of_numberText`: so is a number that is not too long.
  - `readScalar_of_digit`: what begins with a digit, or with a minus sign and a digit, is read as
    a number.
-/
import FieldForest.Json.Reader

namespace FieldForest

namespace Text

theorem ofChars_append (a b : List Char) : ofChars (a ++ b) = ofChars a ++ ofChars b := List.map_append

/-- A run of digits ends where no digit follows. -/
theorem spanDigits_append {ds : List Char} (hd : ∀ c ∈ ds, c.isDigit = true) {rest : Text}
    (hr : rest.spanDigits = ([], rest)) : (ofChars ds ++ rest).spanDigits = (ds, rest) := by
  induction ds with
  | nil => exact hr
  | cons c ds ih =>
    rw [List.forall_mem_cons] at hd
    have hrest : spanDigits (List.map CodePoint.char ds ++ rest) = (ds, rest) := ih hd.2
    simp only [ofChars, List.map_cons, List.cons_append, spanDigits, hd.1, if_true, hrest]

end Text

theorem ne_of_isDigit {c d : Char} (hc : c.isDigit = true) (hd : d.isDigit = false) : c ≠ d := by
  rintro rfl
  rw [hc] at hd
  cases hd

/-! ## Numerals -/

/-- Digits that do not begin with a zero, or zero alone. -/
structure IsNumeral (ds : List Char) : Prop where
  ne_nil : ds ≠ []
  digits : ∀ c ∈ ds, c.isDigit = true
  leading : ds.head? = some '0' → ds = ['0']

theorem toDigits_digit {c : Char} (hc : c.isDigit = true) :
    Nat.toDigits 10 (c.toNat - '0'.toNat) = [c] ∧ c.toNat - '0'.toNat < 10 ∧ (c ≠ '0' → 0 < c.toNat - '0'.toNat) := by
  have hdigits : ∀ n < 10, Nat.toDigits 10 n = [Char.ofNat (48 + n)] := by decide
  have hrange : 48 ≤ c.toNat ∧ c.toNat ≤ 57 := by
    simpa [Char.isDigit, UInt32.le_iff_toNat_le] using hc
  have hzero : '0'.toNat = 48 := rfl
  have hsum : 48 + (c.toNat - '0'.toNat) = c.toNat := by omega
  refine ⟨?_, by omega, fun hne => ?_⟩
  · rw [hdigits _ (by omega), hsum, Char.ofNat_toNat]
  · have : c.toNat ≠ '0'.toNat := fun h => hne (Char.toNat_inj.mp h)
    omega

/-- Digits that follow a number are written behind it. -/
theorem toDigits_ofDigitChars_of_pos {ds : List Char} (hd : ∀ c ∈ ds, c.isDigit = true) {n : Nat} (hn : 0 < n) :
    Nat.toDigits 10 (Nat.ofDigitChars 10 ds n) = Nat.toDigits 10 n ++ ds := by
  induction ds generalizing n with
  | nil => exact (List.append_nil _).symm
  | cons c cs ih =>
    rw [List.forall_mem_cons] at hd
    obtain ⟨hdigit, hlt, -⟩ := toDigits_digit hd.1
    rw [Nat.ofDigitChars_cons, ih hd.2 (by omega), ← Nat.toDigits_append_toDigits (by decide) hn hlt, hdigit,
      List.append_assoc, List.singleton_append]

/-- A numeral is what is written for its value. -/
theorem toDigits_ofDigitChars {ds : List Char} (h : IsNumeral ds) :
    Nat.toDigits 10 (Nat.ofDigitChars 10 ds 0) = ds := by
  obtain ⟨c, cs, rfl⟩ := List.exists_cons_of_ne_nil h.ne_nil
  have hd := List.forall_mem_cons.mp h.digits
  by_cases hzero : c = '0'
  · rw [h.leading (by rw [hzero]; rfl)]
    rfl
  · obtain ⟨hdigit, -, hpos⟩ := toDigits_digit hd.1
    rw [Nat.ofDigitChars_cons, Nat.mul_zero, Nat.zero_add, toDigits_ofDigitChars_of_pos hd.2 (hpos hzero), hdigit,
      List.singleton_append]

namespace Json

/-- Text that may stand behind a value: a blank, or what goes on with what the value is in. -/
inductive EndsValue : Text → Prop
  | nothing : EndsValue []
  | comma {rest : Text} : EndsValue (.char ',' :: rest)
  | space {rest : Text} : EndsValue (.char ' ' :: rest)
  | tab {rest : Text} : EndsValue (.char '\t' :: rest)
  | newline {rest : Text} : EndsValue (.char '\n' :: rest)
  | carriageReturn {rest : Text} : EndsValue (.char '\r' :: rest)
  | bracket {rest : Text} : EndsValue (.char ']' :: rest)
  | brace {rest : Text} : EndsValue (.char '}' :: rest)

namespace EndsValue

variable {rest : Text}

theorem spanDigits_eq (h : EndsValue rest) : rest.spanDigits = ([], rest) := by cases h <;> rfl

theorem fractionPart_eq (h : EndsValue rest) : fractionPart rest = ([], rest) := by cases h <;> rfl

theorem exponentPart?_eq (h : EndsValue rest) : exponentPart? rest = none := by cases h <;> rfl

end EndsValue

/-- A text with a minus sign in front if it is negative. -/
def signed (negative : Bool) (t : Text) : Text := if negative then .char '-' :: t else t

def signedInt (negative : Bool) (n : Nat) : Int := if negative then -(n : Int) else n

/-! ## The texts of numbers -/

inductive SignText : Bool → Text → Prop
  | none : SignText false []
  | plus : SignText false [.char '+']
  | minus : SignText true [.char '-']

/-- The texts of an exponent, which there need not be. -/
inductive ExponentText : Int → Text → Prop
  | none : ExponentText 0 []
  | some {mark : Char} {negative : Bool} {sign : Text} {ds : List Char} : mark = 'e' ∨ mark = 'E' →
      SignText negative sign → ds ≠ [] → (∀ c ∈ ds, c.isDigit = true) →
      ExponentText (signedInt negative (Nat.ofDigitChars 10 ds 0)) (.char mark :: (sign ++ Text.ofChars ds))

/-- Digits behind a point, and nothing without digits. -/
def fractionText : List Char → List Char
  | [] => []
  | ds => '.' :: ds

/-- Whether a number may have so many places in front of its point, a sign included. -/
def Limits.Takes (limits : Limits) (places : Nat) : Prop := ∀ most, limits.places = some most → places ≤ most

theorem Limits.takes_of_places {limits : Limits} (h : limits.places = none) (places : Nat) : limits.Takes places := by
  intro most hmost
  rw [h] at hmost
  cases hmost

/-- The places that digits and a sign take in front of a point. -/
def frontPlaces (negative : Bool) (ds : List Char) : Nat := if negative then ds.length + 1 else ds.length

/-- The texts of a number that a reader takes: a whole number, or one with a fraction or an exponent. -/
inductive NumberText (limits : Limits) : Json → Text → Prop
  | int (negative : Bool) {ds : List Char} : IsNumeral ds → limits.Takes (frontPlaces negative ds) →
      NumberText limits (.int (signedInt negative (Nat.ofDigitChars 10 ds 0))) (signed negative (Text.ofChars ds))
  | float (negative : Bool) {ds fs : List Char} {exponent : Int} {tail : Text} : IsNumeral ds →
      (∀ c ∈ fs, c.isDigit = true) → ExponentText exponent tail → fs ≠ [] ∨ tail ≠ [] →
      limits.Takes (frontPlaces negative ds) →
      NumberText limits (.float (.ofDecimal negative (Nat.ofDigitChars 10 (ds ++ fs) 0) (exponent - fs.length)))
        (signed negative (Text.ofChars (ds ++ fractionText fs) ++ tail))

/-! ## Reading the parts of a number -/

theorem integerPart?_append {ds : List Char} (h : IsNumeral ds) {rest : Text} (hr : rest.spanDigits = ([], rest)) :
    integerPart? (Text.ofChars ds ++ rest) = some (ds, rest) := by
  by_cases hz : ds.head? = some '0'
  · rw [h.leading hz]
    rfl
  · have hspan := Text.spanDigits_append h.digits hr
    obtain ⟨c, cs, rfl⟩ := List.exists_cons_of_ne_nil h.ne_nil
    have hc : c ≠ '0' := fun e => hz (e ▸ rfl)
    unfold integerPart?
    split
    · rename_i heq
      simp only [Text.ofChars, List.map_cons, List.cons_append, List.cons.injEq, CodePoint.char.injEq] at heq
      exact absurd heq.1 hc
    · rw [hspan]

/-- The digits behind a point. -/
theorem fractionPart_append {ds : List Char} (hne : ds ≠ []) (hd : ∀ c ∈ ds, c.isDigit = true) {rest : Text}
    (hr : rest.spanDigits = ([], rest)) : fractionPart (.char '.' :: Text.ofChars ds ++ rest) = (ds, rest) := by
  rw [List.cons_append, fractionPart, Text.spanDigits_append hd hr]
  cases ds with
  | nil => exact absurd rfl hne
  | cons c cs => rfl

theorem exponentDigits?_append {ds : List Char} (hne : ds ≠ []) (hd : ∀ c ∈ ds, c.isDigit = true) {rest : Text}
    (hr : rest.spanDigits = ([], rest)) (negative : Bool) :
    exponentDigits? negative (Text.ofChars ds ++ rest) =
      some (signedInt negative (Nat.ofDigitChars 10 ds 0), rest) := by
  rw [exponentDigits?, Text.spanDigits_append hd hr]
  cases ds with
  | nil => exact absurd rfl hne
  | cons c cs => rfl

theorem exponentPart?_of_digit {mark : Char} (hmark : mark = 'e' ∨ mark = 'E') {c : Char} (hc : c.isDigit = true)
    (s : Text) : exponentPart? (.char mark :: .char c :: s) = exponentDigits? false (.char c :: s) := by
  have hminus : c ≠ '-' := ne_of_isDigit hc rfl
  have hplus : c ≠ '+' := ne_of_isDigit hc rfl
  simp [exponentPart?, hmark, hminus, hplus]

theorem exponentPart?_of_exponentText {exponent : Int} {tail rest : Text} (h : ExponentText exponent tail)
    (hrest : EndsValue rest) :
    (exponentPart? (tail ++ rest)).getD (0, tail ++ rest) = (exponent, rest) ∧
      (tail ≠ [] → exponentPart? (tail ++ rest) ≠ none) := by
  cases h with
  | none =>
    rw [List.nil_append, hrest.exponentPart?_eq]
    exact ⟨rfl, fun h => absurd rfl h⟩
  | @some mark negative sign ds hmark hsign hne hdigits =>
    have hread : exponentPart? (.char mark :: (sign ++ Text.ofChars ds) ++ rest) =
        some (signedInt negative (Nat.ofDigitChars 10 ds 0), rest) := by
      have hdigits? := exponentDigits?_append hne hdigits hrest.spanDigits_eq negative
      cases hsign with
      | none =>
        obtain ⟨c, cs, rfl⟩ := List.exists_cons_of_ne_nil hne
        exact (exponentPart?_of_digit hmark (hdigits c List.mem_cons_self) _).trans hdigits?
      | plus | minus => rcases hmark with rfl | rfl <;> exact hdigits?
    rw [hread]
    exact ⟨rfl, fun _ => Option.some_ne_none _⟩

theorem spanDigits_exponentText {exponent : Int} {tail rest : Text} (h : ExponentText exponent tail)
    (hrest : EndsValue rest) :
    (tail ++ rest).spanDigits = ([], tail ++ rest) ∧ fractionPart (tail ++ rest) = ([], tail ++ rest) := by
  cases h with
  | none => exact ⟨hrest.spanDigits_eq, hrest.fractionPart_eq⟩
  | some hmark _ _ _ => rcases hmark with rfl | rfl <;> exact ⟨rfl, rfl⟩

theorem fractionPart_fractionText {fs : List Char} (hd : ∀ c ∈ fs, c.isDigit = true) {rest : Text}
    (hr : rest.spanDigits = ([], rest)) (hf : fractionPart rest = ([], rest)) :
    fractionPart (Text.ofChars (fractionText fs) ++ rest) = (fs, rest) := by
  cases fs with
  | nil => exact hf
  | cons c fs => exact fractionPart_append (List.cons_ne_nil c fs) hd hr

theorem spanDigits_fractionText (fs : List Char) {rest : Text} (hr : rest.spanDigits = ([], rest)) :
    (Text.ofChars (fractionText fs) ++ rest).spanDigits = ([], Text.ofChars (fractionText fs) ++ rest) := by
  cases fs with
  | nil => exact hr
  | cons c cs => rfl

/-! ## Reading numbers -/

variable {limits : Limits} {negative : Bool} {rest : Text}

theorem Limits.Takes.any_eq_false {places : Nat} (h : limits.Takes places) :
    limits.places.any (· < places) = false := by
  cases hmost : limits.places with
  | none => rfl
  | some most => simpa using h most hmost

/-- A number with its sign is read by its parts. -/
theorem readNumber_signed {unsigned t₁ t₂ : Text} {ds fs : List Char} (hi : integerPart? unsigned = some (ds, t₁))
    (hf : fractionPart t₁ = (fs, t₂))
    (hp : limits.Takes (frontPlaces negative ds)) :
    readNumber limits (signed negative unsigned) =
      if fs.isEmpty ∧ (exponentPart? t₂).isNone then
        if limits.intDigits < ds.length then .error (.tooManyDigits ds.length)
        else .ok (.int (signedInt negative (Nat.ofDigitChars 10 ds 0)), t₂)
      else
        .ok (.float (.ofDecimal negative (Nat.ofDigitChars 10 (ds ++ fs) 0)
          (((exponentPart? t₂).getD (0, t₂)).1 - fs.length)), ((exponentPart? t₂).getD (0, t₂)).2) := by
  -- without this the match on a minus sign does not fall through to its second case
  have hunsigned : ∀ s, unsigned = .char '-' :: s → False := by
    rintro s rfl
    cases hi
  have hany := hp.any_eq_false
  unfold readNumber
  cases negative with
  | true =>
    simp only [frontPlaces, if_true] at hany
    simp only [signed, signedInt, if_true, hi, hf, hany, Bool.false_eq_true, if_false]
  | false =>
    simp only [frontPlaces, Bool.false_eq_true, if_false] at hany
    simp only [signed, signedInt, Bool.false_eq_true, if_false, hi, hf, hany]

/-- Whether a whole number is not too long to be read. -/
def Limits.Admits (limits : Limits) (n : Int) : Prop :=
  (Nat.toDigits 10 n.natAbs).length ≤ limits.intDigits ∧ limits.Takes (Text.ofInt n).length

theorem signed_append (t : Text) : signed negative t ++ rest = signed negative (t ++ rest) := by
  cases negative <;> rfl

theorem natAbs_signedInt (negative : Bool) (n : Nat) : (signedInt negative n).natAbs = n := by
  unfold signedInt
  split <;> omega

/-- A number is read from each of its texts, if it is no whole number that is too long. -/
theorem readNumber_of_numberText {x : Json} {t : Text} (h : NumberText limits x t)
    (hx : ∀ n, x = .int n → limits.Admits n) (hrest : EndsValue rest) :
    readNumber limits (t ++ rest) = .ok (x, rest) := by
  cases h with
  | @int negative ds hd htakes =>
    have hlength := (hx _ rfl).1
    rw [natAbs_signedInt, toDigits_ofDigitChars hd] at hlength
    have hint := integerPart?_append hd hrest.spanDigits_eq
    rw [signed_append, readNumber_signed hint hrest.fractionPart_eq htakes, hrest.exponentPart?_eq,
      if_pos ⟨rfl, rfl⟩, if_neg (by omega)]
  | @float negative ds fs exponent tail hd hf ht hfloat htakes =>
    obtain ⟨hexponent, hsome⟩ := exponentPart?_of_exponentText ht hrest
    obtain ⟨hspan, hpoint⟩ := spanDigits_exponentText ht hrest
    have hint := integerPart?_append hd (spanDigits_fractionText fs hspan)
    have hnot : ¬ (fs.isEmpty ∧ (exponentPart? (tail ++ rest)).isNone) := by
      rw [List.isEmpty_iff, Option.isNone_iff_eq_none]
      exact fun hnone => hfloat.elim (absurd hnone.1) fun htail => hsome htail hnone.2
    rw [signed_append, List.append_assoc, Text.ofChars_append, List.append_assoc,
      readNumber_signed hint (fractionPart_fractionText hf hspan hpoint) htakes, if_neg hnot, hexponent]

/-! ## Numbers among other values -/

/-- A number begins with a digit, or with a minus sign and a digit. -/
theorem begins_numberText {x : Json} {t : Text} (h : NumberText limits x t) :
    ∃ negative c s, c.isDigit = true ∧ t = signed negative (.char c :: s) := by
  cases h with
  | @int negative ds hd =>
    obtain ⟨c, cs, rfl⟩ := List.exists_cons_of_ne_nil hd.ne_nil
    exact ⟨negative, c, Text.ofChars cs, hd.digits c List.mem_cons_self, rfl⟩
  | @float negative ds fs exponent tail hd =>
    obtain ⟨c, cs, rfl⟩ := List.exists_cons_of_ne_nil hd.ne_nil
    exact ⟨negative, c, Text.ofChars (cs ++ fractionText fs) ++ tail, hd.digits c List.mem_cons_self, rfl⟩

/-- What begins with a digit, or with a minus sign and a digit, is read as a number. -/
theorem isPrefixOf?_cons (a b : CodePoint) (s t : Text) :
    (a :: s).isPrefixOf? (b :: t) = if a == b then s.isPrefixOf? t else none := rfl

theorem readScalar_of_digit {c : Char} (hc : c.isDigit = true) (s : Text) :
    readScalar limits (signed negative (.char c :: s)) = readNumber limits (signed negative (.char c :: s)) := by
  have hother (d : Char) (hd : d.isDigit = false) : d ≠ c := (ne_of_isDigit hc hd).symm
  have hwords : (words limits.nanMark).findSome? (fun w =>
      (w.1.isPrefixOf? (signed negative (.char c :: s))).map fun rest => (w.2, rest)) = none := by
    have := hother 'n' rfl
    have := hother 't' rfl
    have := hother 'f' rfl
    have := hother 'N' rfl
    have := hother 'I' rfl
    cases negative <;> simp [words, signed, Text.ofString, Text.ofChars, isPrefixOf?_cons, *]
  have hquote := hother '"' rfl
  unfold readScalar
  split
  · rename_i heq
    cases negative
    · exact absurd (CodePoint.char.inj (List.cons.inj heq).1).symm hquote
    · cases heq
  · split
    · rename_i heq
      cases hwords.symm.trans heq
    · rfl

end Json

end FieldForest
