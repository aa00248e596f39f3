/-
  FieldForest.Proofs.Json.WrittenNumbers — a number is written as one of its texts.

  What is written for a binary number may move zeros from its exponent to its digits, which
  does not change the value that the text has.

  Proved:
  - `numberText_ofInt`: what is written for a whole number is a text of it.
  - `numberText_writeFinite`: so it is for a finite binary number, in any style whose positional
    numbers are not too long.
-/
import FieldForest.Proofs.Json.Numbers
import FieldForest.Proofs.Number.Shortest
import FieldForest.Number.Style

namespace FieldForest

theorem head?_toDigits {n : Nat} (h : (Nat.toDigits 10 n).head? = some '0') : n = 0 := by
  induction n using Nat.strongRecOn with
  | ind n ih =>
    by_cases hn : n < 10
    · rw [Nat.toDigits_of_lt_base hn] at h
      simpa using h
    · obtain ⟨c, cs, hcs⟩ := List.exists_cons_of_ne_nil (Nat.toDigits_ne_nil (n := n / 10) (b := 10))
      rw [Nat.toDigits_of_base_le (by decide) (by omega), hcs] at h
      have := ih (n / 10) (by omega) (by rw [hcs]; exact h)
      omega

theorem isDigit_toDigits (n : Nat) : ∀ c ∈ Nat.toDigits 10 n, c.isDigit = true :=
  fun _ hc => Nat.isDigit_of_mem_toDigits (by decide) (by decide) hc

theorem isNumeral_toDigits (n : Nat) : IsNumeral (Nat.toDigits 10 n) where
  ne_nil := Nat.toDigits_ne_nil
  digits := isDigit_toDigits n
  leading h := by rw [head?_toDigits h, Nat.toDigits_zero]

namespace Json

variable {limits : Limits}

theorem Limits.Takes.mono {places fewer : Nat} (h : limits.Takes places) (hle : fewer ≤ places) :
    limits.Takes fewer :=
  fun most hmost => Nat.le_trans hle (h most hmost)

theorem frontPlaces_le (negative : Bool) (ds : List Char) : frontPlaces negative ds ≤ ds.length + 1 := by
  unfold frontPlaces
  split <;> omega

/-! ## Whole numbers -/

theorem ofInt_eq_signed (n : Int) : Text.ofInt n = signed (n < 0) (Text.ofChars (Nat.toDigits 10 n.natAbs)) := by
  cases n with
  | ofNat n => simp [Text.ofInt, signed, Text.ofNat]
  | negSucc n =>
    rw [signed, if_pos (by simp [Int.negSucc_lt_zero])]
    rfl

theorem length_ofInt (n : Int) : (Text.ofInt n).length = frontPlaces (n < 0) (Nat.toDigits 10 n.natAbs) := by
  rw [ofInt_eq_signed, signed, frontPlaces]
  split <;> simp [Text.ofChars]

theorem signedInt_natAbs (n : Int) : signedInt (n < 0) n.natAbs = n := by
  unfold signedInt
  by_cases h : n < 0
  · rw [if_pos (decide_eq_true h)]
    omega
  · rw [if_neg (by simpa using h)]
    omega

/-- What is written for a whole number is a text of it. -/
theorem numberText_ofInt {n : Int} (hn : limits.Admits n) : NumberText limits (.int n) (Text.ofInt n) := by
  have htakes := hn.2
  rw [length_ofInt] at htakes
  have htext := NumberText.int (n < 0) (isNumeral_toDigits n.natAbs) htakes
  rw [Nat.ofDigitChars_ten_toDigits, signedInt_natAbs] at htext
  rw [ofInt_eq_signed]
  exact htext

/-! ## Binary numbers -/

theorem ofDigitChars_leftpad (width : Nat) (ds : List Char) :
    Nat.ofDigitChars 10 (ds.leftpad width '0') 0 = Nat.ofDigitChars 10 ds 0 := by
  simp [List.leftpad, Nat.ofDigitChars_append, Nat.ofDigitChars_replicate_zero]

/-- What is written for an exponent is a text of it, whatever the style. -/
theorem exponentText_writeExponent (style : DecimalStyle) (exponent : Int) :
    ExponentText exponent (Text.ofChars (style.writeExponent exponent)) := by
  have hdigits : ∀ c ∈ (Nat.toDigits 10 exponent.natAbs).leftpad style.exponentWidth '0', c.isDigit = true := by
    intro c hc
    rcases List.mem_append.mp hc with hc | hc
    · rw [List.eq_of_mem_replicate hc]
      rfl
    · exact isDigit_toDigits _ c hc
  have hvalue : Nat.ofDigitChars 10 ((Nat.toDigits 10 exponent.natAbs).leftpad style.exponentWidth '0') 0 =
      exponent.natAbs := by
    rw [ofDigitChars_leftpad, Nat.ofDigitChars_ten_toDigits]
  have hne : (Nat.toDigits 10 exponent.natAbs).leftpad style.exponentWidth '0' ≠ [] :=
    List.append_ne_nil_of_right_ne_nil _ Nat.toDigits_ne_nil
  have hsign : SignText (exponent < 0)
      (Text.ofChars (if exponent < 0 then ['-'] else if style.plusSign then ['+'] else [])) := by
    by_cases h : exponent < 0
    · rw [if_pos h, decide_eq_true h]
      exact .minus
    · rw [if_neg h, decide_eq_false h]
      split
      · exact .plus
      · exact .none
  have htext := ExponentText.some (.inl rfl) hsign hne hdigits
  rw [hvalue, signedInt_natAbs] at htext
  rw [DecimalStyle.writeExponent, Text.ofChars_append]
  exact htext

theorem ofDigitChars_append_zeros (ds : List Char) (k : Nat) :
    Nat.ofDigitChars 10 (ds ++ List.replicate k '0') 0 = Nat.ofDigitChars 10 ds 0 * Nat.pow 10 k := by
  rw [Nat.ofDigitChars_append, Nat.ofDigitChars_replicate_zero, Nat.mul_comm]
  rfl

theorem isDigit_replicate_zero (k : Nat) : ∀ c ∈ List.replicate k '0', c.isDigit = true := by
  intro c hc
  rw [List.eq_of_mem_replicate hc]
  rfl

theorem isDigit_append {ds fs : List Char} (hd : ∀ c ∈ ds, c.isDigit = true) (hf : ∀ c ∈ fs, c.isDigit = true) :
    ∀ c ∈ ds ++ fs, c.isDigit = true := by
  intro c hc
  rcases List.mem_append.mp hc with hc | hc
  · exact hd c hc
  · exact hf c hc

theorem fractionText_of_ne_nil {fs : List Char} (h : fs ≠ []) : fractionText fs = '.' :: fs := by
  cases fs with
  | nil => exact absurd rfl h
  | cons c fs => rfl

/-- Digits in front of a point and digits behind it that write the value of `digits` with the
    point behind the first `places` of them. -/
structure Places (digits : List Char) (places : Int) (ds fs : List Char) : Prop where
  numeral : IsNumeral ds
  ne_nil : fs ≠ []
  behind : ∀ c ∈ fs, c.isDigit = true
  length_le : ds.length ≤ max 1 places.toNat
  value : Magnitude.ofDecimal? (Nat.ofDigitChars 10 (ds ++ fs) 0) (-(fs.length : Int)) =
    Magnitude.ofDecimal? (Nat.ofDigitChars 10 digits 0) (places - digits.length)

section

variable {digits : List Char} {places : Int} (hd : IsNumeral digits)

include hd

/-- All digits stand behind the point, with zeros in front of them. -/
theorem places_behind (hp : places ≤ 0) :
    Places digits places ['0'] (List.replicate (-places).toNat '0' ++ digits) where
  numeral := ⟨List.cons_ne_nil _ _, isDigit_replicate_zero 1, fun _ => rfl⟩
  ne_nil := List.append_ne_nil_of_right_ne_nil _ hd.ne_nil
  behind := isDigit_append (isDigit_replicate_zero _) hd.digits
  length_le := Nat.le_max_left 1 _
  value := by
    have hvalue : Nat.ofDigitChars 10 (['0'] ++ (List.replicate (-places).toNat '0' ++ digits)) 0 =
        Nat.ofDigitChars 10 digits 0 := by
      simp [Nat.ofDigitChars_append, Nat.ofDigitChars_replicate_zero, Nat.ofDigitChars_cons]
    have hexp : -((List.replicate (-places).toNat '0' ++ digits).length : Int) = places - digits.length := by
      simp only [List.length_append, List.length_replicate]
      omega
    rw [hvalue, hexp]

/-- Zeros fill up to the point, and one stands behind it. -/
theorem places_before (hz : digits = ['0'] → places ≤ 1) (hl : digits.length ≤ places.toNat) :
    Places digits places (digits ++ List.replicate (places.toNat - digits.length) '0') ['0'] where
  numeral := by
    refine ⟨List.append_ne_nil_of_left_ne_nil hd.ne_nil _, isDigit_append hd.digits (isDigit_replicate_zero _), ?_⟩
    intro h
    have hzero : digits = ['0'] := by
      apply hd.leading
      obtain ⟨c, cs, rfl⟩ := List.exists_cons_of_ne_nil hd.ne_nil
      exact h
    have hfill : places.toNat - 1 = 0 := by
      have := hz hzero
      omega
    simp [hzero, hfill]
  ne_nil := List.cons_ne_nil _ _
  behind := isDigit_replicate_zero 1
  length_le := by
    simp only [List.length_append, List.length_replicate]
    omega
  value := by
    have hlen := List.length_pos_iff.mpr hd.ne_nil
    have hone : (['0'] : List Char) = List.replicate 1 '0' := rfl
    rw [List.append_assoc, hone, List.replicate_append_replicate, ofDigitChars_append_zeros,
      Magnitude.ofDecimal?_mul_pow]
    congr 1
    simp only [List.length_replicate]
    omega

/-- The point stands among the digits. -/
theorem places_among (hp : ¬ places ≤ 0) (hl : ¬ digits.length ≤ places.toNat) :
    Places digits places (digits.take places.toNat) (digits.drop places.toNat) where
  numeral := by
    refine ⟨?_, fun c hc => hd.digits c (List.mem_of_mem_take hc), ?_⟩
    · rw [ne_eq, List.take_eq_nil_iff, not_or]
      exact ⟨by omega, hd.ne_nil⟩
    · intro h
      rw [List.head?_take, if_neg (by omega)] at h
      rw [hd.leading h] at hl
      exact absurd (show 1 ≤ places.toNat by omega) hl
  ne_nil := mt List.drop_eq_nil_iff.mp hl
  behind := fun c hc => hd.digits c (List.mem_of_mem_drop hc)
  length_le := by
    rw [List.length_take]
    omega
  value := by
    rw [List.take_append_drop, List.length_drop]
    congr 1
    omega

/-- Positional digits are those in front of a point and those behind it. -/
theorem positional_eq (hz : digits = ['0'] → places ≤ 1) :
    ∃ ds fs, DecimalStyle.positional digits places = ds ++ fractionText fs ∧ Places digits places ds fs := by
  unfold DecimalStyle.positional
  split
  · rename_i hp
    have h := places_behind hd hp
    exact ⟨_, _, by rw [fractionText_of_ne_nil h.ne_nil]; rfl, h⟩
  split
  · rename_i hp hl
    exact ⟨_, _, rfl, places_before hd hz hl⟩
  · rename_i hp hl
    have h := places_among hd hp hl
    exact ⟨_, _, by rw [fractionText_of_ne_nil h.ne_nil], h⟩

end

theorem scientific_eq (style : DecimalStyle) (c : Char) (cs : List Char) (exponent : Int) :
    style.scientific (c :: cs) exponent = [c] ++ fractionText cs ++ style.writeExponent exponent := by
  cases cs <;> rfl

/-- The shortest decimal of a number is zero with the exponent zero, or other than zero. -/
theorem shortest_cases (size : Magnitude) : size.shortest = ⟨0, 0⟩ ∨ size.shortest.digits ≠ 0 := by
  by_cases h : size.mantissa = 0
  · exact .inl (if_pos h)
  · right
    intro hzero
    have hread := size.readsBack_shortest
    rw [hzero, Magnitude.ofDecimal?, if_pos (.inl rfl)] at hread
    cases hread
    exact h rfl

theorem numberText_positional (negative : Bool) {digits : List Char} {places : Int} (hd : IsNumeral digits)
    (hz : digits = ['0'] → places ≤ 1) (hlimits : limits.Takes (max 1 places.toNat + 1)) :
    NumberText limits (.float (.ofDecimal negative (Nat.ofDigitChars 10 digits 0) (places - digits.length)))
      (signed negative (Text.ofChars (DecimalStyle.positional digits places))) := by
  obtain ⟨ds, fs, heq, h⟩ := positional_eq hd hz
  have htakes : limits.Takes (frontPlaces negative ds) :=
    hlimits.mono (Nat.le_trans (frontPlaces_le negative ds) (Nat.succ_le_succ h.length_le))
  have hvalue : Binary64.ofDecimal negative (Nat.ofDigitChars 10 (ds ++ fs) 0) (0 - fs.length) =
      .ofDecimal negative (Nat.ofDigitChars 10 digits 0) (places - digits.length) := by
    rw [Int.zero_sub, Binary64.ofDecimal, h.value, Binary64.ofDecimal]
  have htext := NumberText.float negative h.numeral h.behind .none (.inl h.ne_nil) htakes
  rw [List.append_nil, hvalue] at htext
  rw [heq]
  exact htext

theorem numberText_scientific (negative : Bool) {digits : List Char} (leading : Int) (style : DecimalStyle)
    (hd : IsNumeral digits) (hlimits : limits.Takes 2) :
    NumberText limits (.float (.ofDecimal negative (Nat.ofDigitChars 10 digits 0) (leading + 1 - digits.length)))
      (signed negative (Text.ofChars (style.scientific digits leading))) := by
  obtain ⟨c, cs, rfl⟩ := List.exists_cons_of_ne_nil hd.ne_nil
  have hdigits := List.forall_mem_cons.mp hd.digits
  have hfirst : IsNumeral [c] :=
    ⟨List.cons_ne_nil _ _, by simpa using hdigits.1, fun h => by rw [List.head?_cons, Option.some.injEq] at h; rw [h]⟩
  have hne : Text.ofChars (style.writeExponent leading) ≠ [] := List.cons_ne_nil _ _
  have hvalue : leading - (cs.length : Int) = leading + 1 - ((c :: cs).length : Nat) := by
    rw [List.length_cons]
    omega
  have htext := NumberText.float negative hfirst hdigits.2 (exponentText_writeExponent style leading) (.inr hne)
    (hlimits.mono (frontPlaces_le negative [c]))
  rw [hvalue] at htext
  rw [scientific_eq, Text.ofChars_append]
  exact htext

theorem ofDecimal_shortest (negative : Bool) (size : Magnitude) :
    Binary64.ofDecimal negative size.shortest.digits size.shortest.exponent = .finite negative size := by
  rw [Binary64.ofDecimal, size.readsBack_shortest]

theorem writeFinite_eq_signed (style : DecimalStyle) (negative : Bool) (size : Magnitude) :
    style.writeFinite negative size = signed negative (Text.ofChars (style.writeDecimal size.shortest)) := by
  cases negative <;> rfl

/-- A number whose only digit is zero has the point right behind it. -/
theorem places_shortest_le (size : Magnitude) (h : Nat.toDigits 10 size.shortest.digits = ['0']) :
    size.shortest.exponent + (Nat.toDigits 10 size.shortest.digits).length - 1 + 1 ≤ 1 := by
  rcases shortest_cases size with hzero | hne
  · rw [hzero]
    decide
  · have hvalue := Nat.ofDigitChars_ten_toDigits (n := size.shortest.digits)
    rw [h] at hvalue
    exact absurd hvalue.symm hne

/-- What is written for a finite number is a text of it, in every style whose positional numbers
    have no more digits in front of the point than a reader takes. -/
theorem numberText_writeFinite (style : DecimalStyle) (negative : Bool) (size : Magnitude)
    (hlimits : limits.Takes (max 1 style.firstScientific.toNat + 1)) :
    NumberText limits (.float (.finite negative size)) (style.writeFinite negative size) := by
  have hnumeral := isNumeral_toDigits size.shortest.digits
  have hvalue : Nat.ofDigitChars 10 (Nat.toDigits 10 size.shortest.digits) 0 = size.shortest.digits :=
    Nat.ofDigitChars_ten_toDigits
  rw [writeFinite_eq_signed, ← ofDecimal_shortest negative size, ← hvalue]
  have hexponent : size.shortest.exponent + (Nat.toDigits 10 size.shortest.digits).length - 1 + 1 -
      (Nat.toDigits 10 size.shortest.digits).length = size.shortest.exponent := by omega
  unfold DecimalStyle.writeDecimal
  dsimp only
  split
  · rename_i hrange
    -- the leading digit stands below the first scientific exponent, so few digits precede the point
    have hpositional : limits.Takes (max 1 (size.shortest.exponent +
        (Nat.toDigits 10 size.shortest.digits).length - 1 + 1).toNat + 1) := hlimits.mono (by omega)
    have htext := numberText_positional negative hnumeral (places_shortest_le size) hpositional
    rwa [hexponent] at htext
  · have hscientific : limits.Takes 2 := hlimits.mono (by omega)
    have htext := numberText_scientific negative
      (size.shortest.exponent + (Nat.toDigits 10 size.shortest.digits).length - 1) style hnumeral hscientific
    rwa [hexponent] at htext

end Json

end FieldForest
