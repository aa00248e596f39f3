/-
  FieldForest.Proofs.Number.Shortest — the shortest decimal of a number reads back as it.

  Reading a decimal rounds a quotient, and only the ratio of its two sides counts, so zeros can
  move between the digits and the exponent. The exact decimal of a number is the number, which
  rounding keeps; so the search for a shorter one has something to fall back on.

  Proved:
  - `roundDiv_mul_left` / `nearest?_mul_left`: rounding depends on the ratio alone.
  - `ofDecimal?_mul_pow`: a decimal is read as the same number however its zeros are written.
  - `nearest?_units` / `readsBack_exactDecimal`: a number is nearest to itself, and its exact
    decimal reads back.
  - `readsBack_shortest`: so does its shortest decimal.
-/
import FieldForest.Number.Shortest

namespace FieldForest

/-! ## Rounding -/

theorem roundDiv_mul_left {k : Nat} (hk : 0 < k) (num den : Nat) :
    roundDiv (k * num) (k * den) = roundDiv num den := by
  have htwice : 2 * (k * (num % den)) = k * (2 * (num % den)) := by grind
  unfold roundDiv
  rw [Nat.mul_div_mul_left _ _ hk, Nat.mul_mod_mul_left, htwice]
  simp only [Nat.mul_lt_mul_left hk]

/-- What is divided without remainder is not rounded. -/
theorem roundDiv_mul_self {den : Nat} (hden : 0 < den) (n : Nat) : roundDiv (n * den) den = n := by
  unfold roundDiv
  rw [Nat.mul_div_cancel _ hden, Nat.mul_mod_left]
  exact if_pos hden

namespace Magnitude

theorem nearest?_mul_left {k : Nat} (hk : 0 < k) (num den : Nat) :
    nearest? (k * num) (k * den) = nearest? num den := by
  unfold nearest?
  simp only [Nat.mul_div_mul_left _ _ hk, Nat.mul_assoc, roundDiv_mul_left hk]

/-- The parts of a number give the number again. -/
theorem ofParts?_parts (x : Magnitude) : ofParts? x.mantissa x.shift = some x :=
  dif_pos ⟨x.mantissa_lt, x.shift_le, x.normal⟩

/-- The leading bit of a number with a full mantissa stands 52 places above the last. -/
theorem log2_units (x : Magnitude) : x.units.log2 - 52 = x.shift := by
  have hlt : x.mantissa < 2 ^ 53 := x.mantissa_lt
  have hunits : x.units = x.mantissa * 2 ^ x.shift := rfl
  rcases x.normal with h | h
  · rw [h, Nat.pow_zero, Nat.mul_one] at hunits
    rw [hunits, h]
    by_cases hm : x.mantissa = 0
    · rw [hm]; rfl
    · have := (Nat.log2_lt hm).mpr hlt
      omega
  · have hge : 2 ^ 52 ≤ x.mantissa := h
    have hpos : 0 < 2 ^ x.shift := Nat.two_pow_pos _
    have hlow : 2 ^ (52 + x.shift) ≤ x.units := by
      rw [hunits, Nat.pow_add]
      exact Nat.mul_le_mul_right _ hge
    have hhigh : x.units < 2 ^ (53 + x.shift) := by
      rw [hunits, Nat.pow_add]
      exact Nat.mul_lt_mul_of_pos_right hlt hpos
    have hne : x.units ≠ 0 := by
      have := Nat.two_pow_pos (52 + x.shift)
      omega
    have := (Nat.le_log2 hne).mpr hlow
    have := (Nat.log2_lt hne).mpr hhigh
    omega

/-- A number is nearest to itself. -/
theorem nearest?_units (x : Magnitude) : nearest? x.units 1 = some x := by
  have hround : roundDiv x.units (1 * Nat.pow 2 x.shift) = x.mantissa := by
    rw [Nat.one_mul]
    exact roundDiv_mul_self (Nat.pow_pos (by decide)) x.mantissa
  simp only [nearest?, Nat.div_one, log2_units, hround, if_neg (Nat.ne_of_lt x.mantissa_lt), ofParts?_parts]

/-! ## Decimals -/

/-- Numerator and denominator of `digits * 10 ^ exponent`, in units, give the same ratio for a zero
    more in the digits as for one more in the exponent. -/
theorem nearest?_mul_ten (digits : Nat) (exponent : Int) :
    nearest? (digits * 10 * Nat.pow 10 exponent.toNat * unitsPerOne) (Nat.pow 10 (-exponent).toNat) =
      nearest? (digits * Nat.pow 10 (exponent + 1).toNat * unitsPerOne) (Nat.pow 10 (-(exponent + 1)).toNat) := by
  by_cases he : 0 ≤ exponent
  · have hnum : digits * 10 * Nat.pow 10 exponent.toNat = digits * Nat.pow 10 (exponent + 1).toNat := by
      rw [show (exponent + 1).toNat = exponent.toNat + 1 by omega]
      simp only [Nat.pow_eq, Nat.pow_succ]
      grind
    have hden : (-exponent).toNat = (-(exponent + 1)).toNat := by omega
    rw [hnum, hden]
  · have hnum : digits * 10 * Nat.pow 10 exponent.toNat * unitsPerOne =
        10 * (digits * Nat.pow 10 (exponent + 1).toNat * unitsPerOne) := by
      rw [show (exponent + 1).toNat = 0 by omega, show exponent.toNat = 0 by omega]
      grind
    have hden : Nat.pow 10 (-exponent).toNat = 10 * Nat.pow 10 (-(exponent + 1)).toNat := by
      rw [show (-exponent).toNat = (-(exponent + 1)).toNat + 1 by omega]
      simp only [Nat.pow_eq, Nat.pow_succ]
      grind
    rw [hnum, hden, nearest?_mul_left (by decide)]

theorem length_toDigits_mul_ten {n : Nat} (h : n ≠ 0) :
    (Nat.toDigits 10 (n * 10)).length = (Nat.toDigits 10 n).length + 1 := by
  rw [Nat.toDigits_of_base_le (by decide) (by omega), Nat.mul_div_cancel _ (by decide)]
  simp

/-- A zero more in the digits counts as one more in the exponent. -/
theorem ofDecimal?_mul_ten (digits : Nat) (exponent : Int) :
    ofDecimal? (digits * 10) exponent = ofDecimal? digits (exponent + 1) := by
  unfold ofDecimal?
  by_cases h : digits = 0
  · simp [h]
  · have hne : digits * 10 ≠ 0 := by omega
    have hplaces : ((Nat.toDigits 10 digits).length : Int) + 1 + exponent =
        (Nat.toDigits 10 digits).length + (exponent + 1) := by grind
    simp only [h, hne, length_toDigits_mul_ten h, Int.natCast_add, Int.cast_ofNat_Int, hplaces, nearest?_mul_ten]

theorem ofDecimal?_mul_pow (digits k : Nat) (exponent : Int) :
    ofDecimal? (digits * Nat.pow 10 k) exponent = ofDecimal? digits (exponent + k) := by
  induction k generalizing exponent with
  | zero =>
    show ofDecimal? (digits * 1) exponent = _
    simp
  | succ k ih =>
    have hexp : exponent + 1 + (k : Int) = exponent + ((k + 1 : Nat) : Int) := by omega
    show ofDecimal? (digits * (Nat.pow 10 k * 10)) exponent = _
    rw [← Nat.mul_assoc, ofDecimal?_mul_ten, ih, hexp]

theorem ofDecimal?_dropZeros (fuel : Nat) (d : Decimal) :
    ofDecimal? (d.dropZeros fuel).digits (d.dropZeros fuel).exponent = ofDecimal? d.digits d.exponent := by
  induction fuel generalizing d with
  | zero => rfl
  | succ fuel ih =>
    unfold Decimal.dropZeros
    split
    · rename_i h
      have hdigits : d.digits = d.digits / 10 * 10 := by omega
      rw [ih, hdigits, ofDecimal?_mul_ten, ← hdigits]
    · rfl

/-- The exact decimal of a number other than zero has between 674 and 1474 digits. -/
theorem length_exactDecimal {x : Magnitude} (h : x.mantissa ≠ 0) :
    674 ≤ (Nat.toDigits 10 x.exactDecimal.digits).length ∧ (Nat.toDigits 10 x.exactDecimal.digits).length ≤ 1474 := by
  have hpos : 0 < x.units := Nat.mul_pos (Nat.pos_of_ne_zero h) (Nat.two_pow_pos _)
  have hlt (most : Nat) (h : x.shift ≤ most) : x.units < 2 ^ 53 * 2 ^ most :=
    Nat.mul_lt_mul_of_lt_of_le x.mantissa_lt (Nat.pow_le_pow_right (by decide) h) (Nat.two_pow_pos _)
  have hunits := hlt 2045 x.shift_le
  have hfive : 0 < Nat.pow 5 1074 := by decide +kernel
  unfold exactDecimal
  constructor
  · have hlong : ¬ (Nat.toDigits 10 (x.units * Nat.pow 5 1074)).length ≤ 673 := by
      rw [Nat.length_toDigits_le_iff (by decide) (by decide), Nat.not_lt]
      refine Nat.le_trans ?_ (Nat.le_mul_of_pos_left _ hpos)
      decide +kernel
    exact Nat.lt_of_not_le hlong
  · rw [Nat.length_toDigits_le_iff (by decide) (by decide)]
    refine Nat.lt_of_lt_of_le (Nat.mul_lt_mul_of_pos_right hunits hfive) ?_
    decide +kernel

/-- Units times a power of five are, over as many decimal places, so many units. -/
theorem nearest?_exact (x : Magnitude) (places : Nat) :
    nearest? (x.units * Nat.pow 5 places * Nat.pow 10 0 * Nat.pow 2 places) (Nat.pow 10 places) = some x := by
  have hnum : x.units * Nat.pow 5 places * Nat.pow 10 0 * Nat.pow 2 places = 10 ^ places * x.units := by
    simp only [Nat.pow_eq, show (10 : Nat) = 5 * 2 from rfl, Nat.mul_pow]
    grind
  have hden : Nat.pow 10 places = 10 ^ places * 1 := (Nat.mul_one _).symm
  rw [hnum, hden, nearest?_mul_left (Nat.pow_pos (by decide)), nearest?_units]

theorem readsBack_exactDecimal {x : Magnitude} (h : x.mantissa ≠ 0) :
    ofDecimal? x.exactDecimal.digits x.exactDecimal.exponent = some x := by
  obtain ⟨hleast, hmost⟩ := length_exactDecimal h
  have hexp : x.exactDecimal.exponent = -1074 := rfl
  have hne : ¬ x.exactDecimal.digits = 0 := by
    intro hzero
    rw [hzero] at hleast
    exact absurd hleast (by decide)
  unfold ofDecimal?
  rw [hexp, if_neg (by omega), if_neg (by omega), show (-1074 : Int).toNat = 0 from rfl,
    show (-(-1074 : Int)).toNat = 1074 from rfl]
  unfold exactDecimal unitsPerOne
  -- a variable, as no step may evaluate powers of this size
  generalize 1074 = places
  exact nearest?_exact x places

/-- The shortest decimal of a number reads back as the number. -/
theorem readsBack_shortest (x : Magnitude) : ofDecimal? x.shortest.digits x.shortest.exponent = some x := by
  unfold shortest
  split
  · rename_i h
    have hshift : x.shift = 0 := by
      rcases x.normal with hs | hm
      · exact hs
      · rw [h] at hm
        exact absurd hm (by decide)
    have hzero : x = zero := by
      cases x
      simp_all [zero]
    rw [hzero]
    rfl
  · rename_i h
    rw [ofDecimal?_dropZeros]
    cases hfind : x.candidates.find? x.readsBack with
    | none => exact readsBack_exactDecimal h
    | some d => simpa [readsBack] using List.find?_some hfind

end Magnitude

end FieldForest
