/-
  FieldForest.Proofs.Json.Consumption — what a reader makes of a text.

  Each reader takes something off the front of a text, so what it leaves is an end of that
  text. A number that is too long for one reader is therefore a run of digits in the text that
  the outermost one was given, and no other reader has an error of that kind.

  Proved:
  - `taken_readNumber` / `taken_readPieces`: this of numbers and strings.
  - `taken_readItems`: of elements and members, if it holds of each.
  - `taken_readValue`: of values, by induction on how deep they may nest.
  - `long_of_read`: a whole text is found too long in a number only where it has such a run.
-/
import FieldForest.Proofs.Json.Numbers
import Mathlib.Data.List.Basic

namespace FieldForest

namespace Text

/-- Digits are taken off the front of a text. -/
theorem spanDigits_split {s rest : Text} {ds : List Char} (h : s.spanDigits = (ds, rest)) :
    s = ofChars ds ++ rest ∧ ∀ c ∈ ds, c.isDigit = true := by
  fun_induction spanDigits s generalizing ds rest with
  | case1 c tail hc digits after htail ih =>
    cases h
    obtain ⟨rfl, hdigits⟩ := ih htail
    exact ⟨rfl, List.forall_mem_cons.mpr ⟨hc, hdigits⟩⟩
  | case2 | case3 =>
    cases h
    exact ⟨rfl, List.forall_mem_nil _⟩

theorem spanDigits_suffix {s rest : Text} {ds : List Char} (h : s.spanDigits = (ds, rest)) : rest <:+ s :=
  ⟨ofChars ds, (spanDigits_split h).1.symm⟩

end Text

namespace Json

/-- Somewhere in the text stand `n` digits in a row. -/
def HasRun (n : Nat) (s : Text) : Prop :=
  ∃ before ds after, s = before ++ Text.ofChars ds ++ after ∧ ds.length = n ∧ ∀ c ∈ ds, c.isDigit = true

/-- What a reader may make of a text: it leaves an end of it, or finds a whole number in it that
    has more than `most` digits, or has an error of another kind. -/
inductive Taken {α : Type} (most : Nat) (s : Text) : Except ReadError (α × Text) → Prop
  | ok {a : α} {rest : Text} : rest <:+ s → Taken most s (.ok (a, rest))
  | long {n : Nat} : most < n → HasRun n s → Taken most s (.error (.tooManyDigits n))
  | malformed {defect : Defect} {rest : Text} : Taken most s (.error (.malformed defect rest))
  | tooDeep : Taken most s (.error .tooDeep)

theorem HasRun.of_suffix {n : Nat} {s t : Text} (h : HasRun n t) (hst : t <:+ s) : HasRun n s := by
  obtain ⟨before, ds, after, rfl, hn, hd⟩ := h
  obtain ⟨front, rfl⟩ := hst
  exact ⟨front ++ before, ds, after, by simp only [List.append_assoc], hn, hd⟩

namespace Taken

variable {α β : Type} {most : Nat} {s t : Text} {result : Except ReadError (α × Text)}

theorem of_suffix (h : Taken most t result) (hst : t <:+ s) : Taken most s result := by
  cases h with
  | ok hrest => exact .ok (hrest.trans hst)
  | long hn hrun => exact .long hn (hrun.of_suffix hst)
  | malformed => exact .malformed
  | tooDeep => exact .tooDeep

theorem bind {f : α × Text → Except ReadError (β × Text)} (h : Taken most s result)
    (hf : ∀ a rest, Taken most rest (f (a, rest))) : Taken most s (result >>= f) := by
  cases h with
  | ok hrest => exact (hf _ _).of_suffix hrest
  | long hn hrun => exact .long hn hrun
  | malformed => exact .malformed
  | tooDeep => exact .tooDeep

theorem map {f : α × Text → β × Text} (h : Taken most s result) (hf : ∀ x, (f x).2 = x.2) :
    Taken most s (result.map f) := by
  cases h with
  | ok hrest => exact .ok ((hf _).symm ▸ hrest)
  | long hn hrun => exact .long hn hrun
  | malformed => exact .malformed
  | tooDeep => exact .tooDeep

end Taken

/-! ## Numbers -/

theorem skipSpace_suffix (s : Text) : skipSpace s <:+ s := List.dropWhile_suffix _

theorem integerPart?_split {s rest : Text} {ds : List Char} (h : integerPart? s = some (ds, rest)) :
    s = Text.ofChars ds ++ rest ∧ ∀ c ∈ ds, c.isDigit = true := by
  unfold integerPart? at h
  split at h
  · cases h
    exact ⟨rfl, List.forall_mem_singleton.mpr rfl⟩
  · split at h
    · cases h
    · exact Text.spanDigits_split (Option.some.inj h)

theorem fractionPart_suffix {s rest : Text} {fs : List Char} (h : fractionPart s = (fs, rest)) : rest <:+ s := by
  unfold fractionPart at h
  split at h
  · rename_i tail
    split at h
    · cases h
      exact List.suffix_rfl
    · exact (Text.spanDigits_suffix h).trans (List.suffix_cons _ _)
  · cases h
    exact List.suffix_rfl

theorem exponentDigits?_suffix {negative : Bool} {s rest : Text} {n : Int}
    (h : exponentDigits? negative s = some (n, rest)) : rest <:+ s := by
  unfold exponentDigits? at h
  split at h
  · cases h
  · cases h
    exact Text.spanDigits_suffix (by assumption)

theorem exponentPart?_suffix {s rest : Text} {n : Int} (h : exponentPart? s = some (n, rest)) : rest <:+ s := by
  unfold exponentPart? at h
  split at h
  · split at h
    · split at h
      · exact (exponentDigits?_suffix h).trans ⟨[_, _], rfl⟩
      · exact (exponentDigits?_suffix h).trans ⟨[_, _], rfl⟩
      · exact (exponentDigits?_suffix h).trans (List.suffix_cons _ _)
    · cases h
  · cases h

variable {limits : Limits}

theorem signed_suffix (negative : Bool) (t : Text) : t <:+ signed negative t := by
  cases negative with
  | true => exact List.suffix_cons _ _
  | false => exact List.suffix_rfl

/-- A minus sign in front of a text is its sign. -/
theorem exists_signed (s : Text) :
    ∃ negative unsigned, s = signed negative unsigned ∧ (negative = false → ∀ t, unsigned ≠ .char '-' :: t) := by
  by_cases hs : ∃ t, s = .char '-' :: t
  · obtain ⟨t, rfl⟩ := hs
    exact ⟨true, t, rfl, by simp⟩
  · exact ⟨false, s, rfl, fun _ => not_exists.mp hs⟩

theorem readNumber_of_no_digits {negative : Bool} {unsigned : Text} (hi : integerPart? unsigned = none)
    (hsign : negative = false → ∀ t, unsigned ≠ .char '-' :: t) :
    readNumber limits (signed negative unsigned) = .error (.malformed .value (signed negative unsigned)) := by
  unfold readNumber
  cases negative with
  | true => simp only [signed, if_true, hi]
  | false =>
    have hunsigned : ∀ t, unsigned = .char '-' :: t → False := hsign rfl
    simp only [signed, Bool.false_eq_true, if_false, hi]

/-- A number is taken off the front of a text, if it is not too long. -/
theorem taken_readNumber (hplaces : limits.places = none) (s : Text) :
    Taken limits.intDigits s (readNumber limits s) := by
  obtain ⟨negative, unsigned, rfl, hsign⟩ := exists_signed s
  refine .of_suffix ?_ List.suffix_rfl
  cases hi : integerPart? unsigned with
  | none =>
    rw [readNumber_of_no_digits hi hsign]
    exact .malformed
  | some found =>
    obtain ⟨ds, rest⟩ := found
    obtain ⟨hsplit, hdigits⟩ := integerPart?_split hi
    have hrest : rest <:+ signed negative unsigned := .trans ⟨_, hsplit.symm⟩ (signed_suffix negative unsigned)
    rcases hf : fractionPart rest with ⟨fs, after⟩
    have hafter : after <:+ signed negative unsigned := (fractionPart_suffix hf).trans hrest
    rw [readNumber_signed hi hf (Limits.takes_of_places hplaces _)]
    split
    · split
      · rename_i hlong
        refine .long hlong (HasRun.of_suffix ?_ (signed_suffix negative unsigned))
        exact ⟨[], ds, rest, hsplit, rfl, hdigits⟩
      · exact .ok hafter
    · refine .ok ?_
      cases he : exponentPart? after with
      | none => exact hafter
      | some found => exact (exponentPart?_suffix he).trans hafter

/-! ## Strings -/

theorem taken_readPieces (most : Nat) (opening s : Text) : Taken most s (readPieces opening s) := by
  fun_induction readPieces opening s with
  | case2 => exact .ok (List.suffix_cons _ _)
  | case4 _ _ _ _ _ _ _ _ ih => exact .of_suffix (.map ih fun _ => rfl) ⟨[_, _, _, _, _, _], rfl⟩
  | case7 _ _ _ _ _ _ ih => exact .of_suffix (.map ih fun _ => rfl) ⟨[_, _], rfl⟩
  | case10 _ _ _ _ _ _ _ _ ih => exact .of_suffix (.map ih fun _ => rfl) (List.suffix_cons _ _)
  | _ => exact .malformed

theorem taken_readString (most : Nat) (opening s : Text) : Taken most s (readString opening s) :=
  (taken_readPieces most opening s).map fun _ => rfl

/-! ## Values -/

theorem taken_readScalar (hplaces : limits.places = none) (s : Text) :
    Taken limits.intDigits s (readScalar limits s) := by
  unfold readScalar
  split
  · exact .of_suffix (.map (taken_readString _ _ _) fun _ => rfl) (List.suffix_cons _ _)
  · split
    · rename_i found hfound
      obtain ⟨⟨word, value⟩, -, hword⟩ := List.exists_of_findSome?_eq_some hfound
      obtain ⟨rest, hprefix, rfl⟩ := Option.map_eq_some_iff.mp hword
      exact .ok ⟨word, List.isPrefixOf?_eq_some_iff_append_eq.mp hprefix⟩
    · exact taken_readNumber hplaces _

theorem taken_readItems {α : Type} {most : Nat} {close : Char} {item : Reader α} (hitem : ∀ s, Taken most s (item s))
    (fuel : Nat) (s : Text) : Taken most s (readItems close item fuel s) := by
  induction fuel generalizing s with
  | zero => exact .malformed
  | succ fuel ih =>
    rw [readItems]
    refine (hitem s).bind fun x rest => ?_
    dsimp only
    refine .of_suffix ?_ (skipSpace_suffix rest)
    generalize skipSpace rest = behind
    split
    · exact .malformed
    · rename_i c tail
      refine .of_suffix (t := tail) ?_ (List.suffix_cons c tail)
      split
      · exact .ok List.suffix_rfl
      · split
        · refine .of_suffix ?_ (skipSpace_suffix tail)
          exact (ih _).bind fun xs rest => .ok List.suffix_rfl
        · exact .malformed

theorem taken_readBracketed {α : Type} {most : Nat} {close : Char} {item : Reader α}
    (hitem : ∀ s, Taken most s (item s)) (bound : Nat) (s : Text) :
    Taken most s (readBracketed close item bound s) := by
  unfold readBracketed
  refine .of_suffix ?_ (skipSpace_suffix s)
  generalize skipSpace s = first
  split
  · exact taken_readItems hitem bound _
  · split
    · exact .ok (List.suffix_cons _ _)
    · exact taken_readItems hitem bound _

theorem taken_readKey (most : Nat) (s : Text) : Taken most s (readKey s) := by
  unfold readKey
  split
  · refine .of_suffix ?_ (List.suffix_cons _ _)
    refine (taken_readString most _ _).bind fun key rest => .of_suffix ?_ (skipSpace_suffix rest)
    dsimp only
    generalize skipSpace rest = behind
    split
    · exact .ok ((skipSpace_suffix _).trans (List.suffix_cons _ _))
    · exact .malformed
  · exact .malformed

theorem taken_readMember {most : Nat} {item : Reader Json} (hitem : ∀ s, Taken most s (item s)) (s : Text) :
    Taken most s (readMember item s) :=
  (taken_readKey most s).bind fun _ t => (hitem t).bind fun _ _ => .ok List.suffix_rfl

theorem taken_readValue (hplaces : limits.places = none) (bound depth : Nat) (s : Text) :
    Taken limits.intDigits s (readValue limits bound depth s) := by
  induction depth generalizing s with
  | zero =>
    unfold readValue
    split
    · exact .tooDeep
    · exact .tooDeep
    · exact taken_readScalar hplaces s
  | succ depth ih =>
    unfold readValue
    split
    · exact .of_suffix (.map (taken_readBracketed ih bound _) fun _ => rfl) (List.suffix_cons _ _)
    · exact .of_suffix (.map (taken_readBracketed (taken_readMember ih) bound _) fun _ => rfl) (List.suffix_cons _ _)
    · exact taken_readScalar hplaces s

/-- Where a whole text is found to hold a number that is too long, it has that many digits in a row. -/
theorem long_of_read (hplaces : limits.places = none) {s : Text} {n : Nat}
    (h : read limits s = .error (.tooManyDigits n)) : limits.intDigits < n ∧ HasRun n s := by
  have htaken := (taken_readValue hplaces (s.length + 1) limits.depth (skipSpace s)).of_suffix (skipSpace_suffix s)
  unfold read at h
  split at h
  · cases h
  · generalize readValue limits (s.length + 1) limits.depth (skipSpace s) = result at h htaken
    cases htaken with
    | long hn hrun =>
      cases h
      exact ⟨hn, hrun⟩
    | malformed => cases h
    | tooDeep => cases h
    | @ok document rest hrest =>
      simp only [bind, Except.bind] at h
      split at h <;> cases h

end Json

end FieldForest
