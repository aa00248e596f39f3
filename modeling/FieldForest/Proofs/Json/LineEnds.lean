/-
  FieldForest.Proofs.Json.LineEnds — how lines end makes no difference to what is read.

  A carriage return is a blank between tokens and nothing that a string may hold, so no reader
  stops between one and the line feed behind it. Each reader therefore does on a text with its
  line ends unified what it does on the text, and what it leaves is unified.

  Proved:
  - `unifies_readNumber` / `unified_readPieces`: this of numbers and strings.
  - `unifies_readItems` / `unifies_readValue`: of elements and members, and of every value.
  - `read_unifyNewlines`: a whole text with its line ends unified writes the same document, or is
    at fault in the same way.
-/
import FieldForest.Proofs.Json.Bounds
import FieldForest.Proofs.Json.Grammar
import FieldForest.Proofs.Text.LineEnds

namespace FieldForest

namespace Json

open Text

/-! ## What unified texts are read as -/

/-- The error for a text with its line ends unified. -/
def ReadError.unified : ReadError → ReadError
  | .malformed defect rest => .malformed defect rest.unifyNewlines
  | .tooDeep => .tooDeep
  | .tooManyDigits count => .tooManyDigits count

/-- What a reader gives, with the line ends unified in what it leaves. -/
def unified {α : Type} (x : Except ReadError (α × Text)) : Except ReadError (α × Text) :=
  match x with
  | .ok p => .ok (p.1, p.2.unifyNewlines)
  | .error e => .error e.unified

/-- A reader does the same on a text with its line ends unified. -/
def Unifies {α : Type} (read : Reader α) : Prop := ∀ s : Text, read s.unifyNewlines = unified (read s)

section

variable {α β : Type} {x : Except ReadError (α × Text)}

theorem unified_bind {f : α × Text → Except ReadError (β × Text)}
    (hf : ∀ a rest, f (a, rest.unifyNewlines) = unified (f (a, rest))) : unified x >>= f = unified (x >>= f) := by
  cases x with
  | error e => rfl
  | ok p => exact hf p.1 p.2

theorem unified_map {f : α × Text → β × Text}
    (hf : ∀ a rest, f (a, rest.unifyNewlines) = ((f (a, rest)).1, (f (a, rest)).2.unifyNewlines)) :
    (unified x).map f = unified (x.map f) := by
  cases x with
  | error e => rfl
  | ok p => exact congrArg Except.ok (hf p.1 p.2)

end

/-! ## Blanks -/

theorem skipSpace_unifyNewlines (s : Text) : skipSpace s.unifyNewlines = (skipSpace s).unifyNewlines := by
  have hreturn : isSpace (.char '\r') = true := rfl
  have hfeed : isSpace (.char '\n') = true := rfl
  fun_induction unifyNewlines s with
  | case1 rest ih => simpa [skipSpace, hreturn, hfeed] using ih
  | case2 rest hrest ih => simpa [skipSpace, hreturn, hfeed] using ih
  | case3 c rest h₁ h₂ ih =>
    have hc : c ≠ .char '\r' := fun hc => h₂ hc
    cases hspace : isSpace c with
    | true => simpa [skipSpace, hspace] using ih
    | false => simp [skipSpace, hspace, unifyNewlines_cons hc]
  | case4 => rfl

/-- Behind blanks stands no carriage return. -/
theorem skipSpace_cases (s : Text) :
    skipSpace s = [] ∨ ∃ c rest, c ≠ .char '\r' ∧ skipSpace s = c :: rest := by
  cases h : skipSpace s with
  | nil => exact .inl rfl
  | cons c rest =>
    refine .inr ⟨c, rest, ?_, rfl⟩
    rintro rfl
    have hnot := List.head?_dropWhile_not isSpace s
    rw [show s.dropWhile isSpace = _ from h] at hnot
    cases hnot

/-! ## Numbers -/

theorem integerPart?_unifyNewlines (s : Text) :
    integerPart? s.unifyNewlines = (integerPart? s).map fun p => (p.1, p.2.unifyNewlines) := by
  have hspan {s : Text} (h : ∀ t, s ≠ .char '0' :: t) :
      integerPart? s = if s.spanDigits.1 = [] then none else some s.spanDigits := by
    unfold integerPart?
    split
    · exact absurd rfl (h _)
    · rcases hs : s.spanDigits with ⟨_ | ⟨d, ds⟩, rest⟩ <;> simp
  by_cases hzero : ∃ t, s = .char '0' :: t
  · obtain ⟨t, rfl⟩ := hzero
    rfl
  · have hzero : ∀ t, s ≠ .char '0' :: t := not_exists.mp hzero
    have hunified : ∀ t, s.unifyNewlines ≠ .char '0' :: t := by
      intro t ht
      obtain ⟨u, hu, -⟩ := exists_of_unifyNewlines_eq_cons ht (by simp)
      exact hzero u hu
    rw [hspan hzero, hspan hunified, spanDigits_unifyNewlines]
    split <;> rfl

theorem fractionPart_point (s : Text) :
    fractionPart (.char '.' :: s) = if s.spanDigits.1 = [] then ([], .char '.' :: s) else s.spanDigits := by
  rw [fractionPart]
  rcases s.spanDigits with ⟨_ | ⟨d, ds⟩, rest⟩ <;> simp

theorem fractionPart_of_no_point {s : Text} (h : ∀ t, s ≠ .char '.' :: t) : fractionPart s = ([], s) := by
  unfold fractionPart
  split
  · exact absurd rfl (h _)
  · rfl

theorem fractionPart_unifyNewlines (s : Text) :
    fractionPart s.unifyNewlines = ((fractionPart s).1, (fractionPart s).2.unifyNewlines) := by
  by_cases hpoint : ∃ t, s = .char '.' :: t
  · obtain ⟨t, rfl⟩ := hpoint
    rw [unifyNewlines_cons (by simp), fractionPart_point, fractionPart_point, spanDigits_unifyNewlines]
    split
    · rw [unifyNewlines_cons (by simp)]
    · rfl
  · have hpoint := not_exists.mp hpoint
    rw [fractionPart_of_no_point hpoint, fractionPart_of_no_point (unifyNewlines_ne_cons (by simp) hpoint)]

theorem exponentDigits?_unifyNewlines (negative : Bool) (s : Text) :
    exponentDigits? negative s.unifyNewlines =
      (exponentDigits? negative s).map fun p => (p.1, p.2.unifyNewlines) := by
  unfold exponentDigits?
  rw [spanDigits_unifyNewlines]
  rcases s.spanDigits with ⟨_ | ⟨d, ds⟩, rest⟩ <;> rfl

theorem exponentPart?_of_no_sign {mark : Char} (hmark : mark = 'e' ∨ mark = 'E') {s : Text}
    (hminus : ∀ t, s ≠ .char '-' :: t) (hplus : ∀ t, s ≠ .char '+' :: t) :
    exponentPart? (.char mark :: s) = exponentDigits? false s := by
  unfold exponentPart?
  dsimp only
  rw [if_pos hmark]
  split
  · exact absurd rfl (hminus _)
  · exact absurd rfl (hplus _)
  · rfl

theorem exponentPart?_unifyNewlines (s : Text) :
    exponentPart? s.unifyNewlines = (exponentPart? s).map fun p => (p.1, p.2.unifyNewlines) := by
  by_cases hmarked : ∃ mark t, (mark = 'e' ∨ mark = 'E') ∧ s = .char mark :: t
  · obtain ⟨mark, t, hmark, rfl⟩ := hmarked
    have hreturn : CodePoint.char mark ≠ .char '\r' := by rcases hmark with rfl | rfl <;> simp
    rw [unifyNewlines_cons hreturn]
    by_cases hminus : ∃ u, t = .char '-' :: u
    · obtain ⟨u, rfl⟩ := hminus
      rw [unifyNewlines_cons (by simp)]
      rcases hmark with rfl | rfl <;> exact exponentDigits?_unifyNewlines true u
    by_cases hplus : ∃ u, t = .char '+' :: u
    · obtain ⟨u, rfl⟩ := hplus
      rw [unifyNewlines_cons (by simp)]
      rcases hmark with rfl | rfl <;> exact exponentDigits?_unifyNewlines false u
    · have hminus := not_exists.mp hminus
      have hplus := not_exists.mp hplus
      rw [exponentPart?_of_no_sign hmark hminus hplus, exponentPart?_of_no_sign hmark
        (unifyNewlines_ne_cons (by simp) hminus) (unifyNewlines_ne_cons (by simp) hplus)]
      exact exponentDigits?_unifyNewlines false t
  · have hnone {u : Text} (hu : ∀ mark t, (mark = 'e' ∨ mark = 'E') → u ≠ .char mark :: t) :
        exponentPart? u = none := by
      unfold exponentPart?
      split
      · rename_i mark t
        rw [if_neg fun hmark => hu mark t hmark rfl]
      · rfl
    have hunmarked : ∀ mark t, (mark = 'e' ∨ mark = 'E') → s ≠ .char mark :: t :=
      fun mark t hmark hs => hmarked ⟨mark, t, hmark, hs⟩
    rw [hnone hunmarked, hnone fun mark t hmark => unifyNewlines_ne_cons ?_ (hunmarked mark · hmark) t]
    · rfl
    · rcases hmark with rfl | rfl <;> simp

variable {limits : Limits}

theorem unifyNewlines_signed (negative : Bool) (s : Text) :
    (signed negative s).unifyNewlines = signed negative s.unifyNewlines := by
  cases negative with
  | true => exact unifyNewlines_cons (by simp) s
  | false => rfl

theorem unifies_readNumber (hplaces : limits.places = none) : Unifies (readNumber limits) := by
  intro s
  obtain ⟨negative, unsigned, rfl, hsign⟩ := exists_signed s
  have hi := integerPart?_unifyNewlines unsigned
  rw [unifyNewlines_signed]
  cases hint : integerPart? unsigned with
  | none =>
    rw [hint] at hi
    rw [readNumber_of_no_digits hint hsign,
      readNumber_of_no_digits hi fun hn => unifyNewlines_ne_cons (by simp) (hsign hn)]
    exact congrArg (Except.error ∘ ReadError.malformed .value) (unifyNewlines_signed _ _).symm
  | some found =>
    obtain ⟨ds, rest⟩ := found
    rw [hint] at hi
    rcases hf : fractionPart rest with ⟨fs, after⟩
    have hfraction := fractionPart_unifyNewlines rest
    rw [hf] at hfraction
    rw [readNumber_signed hint hf (Limits.takes_of_places hplaces _),
      readNumber_signed hi hfraction (Limits.takes_of_places hplaces _), exponentPart?_unifyNewlines]
    cases exponentPart? after with
    | none => dsimp only [Option.map_none, Option.isNone, Option.getD]; split_ifs <;> rfl
    | some found => dsimp only [Option.map_some, Option.isNone, Option.getD]; split_ifs <;> rfl

/-! ## Strings -/

/-- What begins neither a short escape nor a hexadecimal one, nor ends the string. -/
theorem readPieces_cons {opening s : Text} {c : CodePoint} (hquote : c ≠ .char '"') (hbackslash : c ≠ .char '\\') :
    readPieces opening (c :: s) =
      if c.toNat < 0x20 then .error (.malformed .controlCharacter (c :: s))
      else (readPieces opening s).map (putFirst (.point c)) := by
  rw [readPieces]
  · exact hquote
  · exact fun hc _ => hbackslash hc
  · exact fun _ _ _ _ _ hc _ => hbackslash hc
  · exact fun _ hc _ => hbackslash hc
  · exact fun _ _ hc _ => hbackslash hc

theorem readPieces_short {opening s : Text} {letter : CodePoint} {c : Char} (hu : letter ≠ .char 'u')
    (hc : shortEscape? letter = some c) :
    readPieces opening (.char '\\' :: letter :: s) = (readPieces opening s).map (putFirst (.point (.char c))) := by
  rw [readPieces, hc]
  · exact fun _ _ _ _ _ hletter _ => hu hletter
  · exact hu

theorem readPieces_of_no_short {opening s : Text} {letter : CodePoint} (hu : letter ≠ .char 'u')
    (hc : shortEscape? letter = none) :
    readPieces opening (.char '\\' :: letter :: s) = .error (.malformed .escape (.char '\\' :: letter :: s)) := by
  rw [readPieces, hc]
  · exact fun _ _ _ _ _ hletter _ => hu hletter
  · exact hu

/-- The digits of a unit, with something behind them. -/
def IsUnit (s : Text) : Prop :=
  ∃ a b c d n, ∃ after : Text, s = a :: b :: c :: d :: after ∧ hexUnit? a b c d = some n ∧ after ≠ []

theorem readPieces_of_no_unit {opening s : Text} (h : ¬ IsUnit s) :
    readPieces opening (.char '\\' :: .char 'u' :: s) = .error (.malformed .unicodeEscape (.char 'u' :: s)) := by
  by_cases hfour : ∃ a b c d after, s = a :: b :: c :: d :: after
  · obtain ⟨a, b, c, d, after, rfl⟩ := hfour
    rw [readPieces]
    rintro n x xs hn rfl
    exact h ⟨a, b, c, d, n, x :: xs, rfl, hn, List.cons_ne_nil x xs⟩
  · rw [readPieces]
    rintro a b c d after rfl
    exact hfour ⟨a, b, c, d, after, rfl⟩

/-- What has a value as a hexadecimal digit ends no line. -/
def EndsNoLine (c : CodePoint) : Prop := c ≠ .char '\r' ∧ c ≠ .char '\n'

theorem endsNoLine_of_hexDigit? {c : CodePoint} {n : Nat} (h : c.hexDigit? = some n) : EndsNoLine c := by
  constructor
  · rintro rfl
    cases h
  · rintro rfl
    cases h

theorem endsNoLine_of_hexUnit? {a b c d : CodePoint} {n : Nat} (h : hexUnit? a b c d = some n) :
    EndsNoLine a ∧ EndsNoLine b ∧ EndsNoLine c ∧ EndsNoLine d := by
  simp only [hexUnit?, bind, Option.bind_eq_some_iff] at h
  obtain ⟨w, hw, x, hx, y, hy, z, hz, -⟩ := h
  exact ⟨endsNoLine_of_hexDigit? hw, endsNoLine_of_hexDigit? hx, endsNoLine_of_hexDigit? hy,
    endsNoLine_of_hexDigit? hz⟩

theorem unifyNewlines_unit {a b c d : CodePoint} {n : Nat} (h : hexUnit? a b c d = some n) (s : Text) :
    unifyNewlines (a :: b :: c :: d :: s) = a :: b :: c :: d :: s.unifyNewlines := by
  obtain ⟨ha, hb, hc, hd⟩ := endsNoLine_of_hexUnit? h
  rw [unifyNewlines_cons ha.1, unifyNewlines_cons hb.1, unifyNewlines_cons hc.1, unifyNewlines_cons hd.1]

theorem isUnit_of_unifyNewlines {s : Text} (h : IsUnit s.unifyNewlines) : IsUnit s := by
  obtain ⟨a, b, c, d, n, after, hs, hn, hafter⟩ := h
  obtain ⟨ha, hb, hc, hd⟩ := endsNoLine_of_hexUnit? hn
  obtain ⟨t₁, rfl, h₁⟩ := exists_of_unifyNewlines_eq_cons hs ha.2
  obtain ⟨t₂, rfl, h₂⟩ := exists_of_unifyNewlines_eq_cons h₁.symm hb.2
  obtain ⟨t₃, rfl, h₃⟩ := exists_of_unifyNewlines_eq_cons h₂.symm hc.2
  obtain ⟨t₄, rfl, rfl⟩ := exists_of_unifyNewlines_eq_cons h₃.symm hd.2
  refine ⟨a, b, c, d, n, t₄, rfl, hn, ?_⟩
  rintro rfl
  exact hafter rfl

theorem unified_putFirst (piece : Piece) (x : Except ReadError (List Piece × Text)) :
    unified (x.map (putFirst piece)) = (unified x).map (putFirst piece) := (unified_map fun _ _ => rfl).symm

theorem unified_of_no_unit {opening s : Text} (h : ¬ IsUnit s) :
    readPieces opening (unifyNewlines (.char '\\' :: .char 'u' :: s)) =
      unified (.error (.malformed .unicodeEscape (.char 'u' :: s)) : Except ReadError (List Piece × Text)) := by
  rw [unifyNewlines_cons (by simp), unifyNewlines_cons (by simp), readPieces_of_no_unit (h ∘ isUnit_of_unifyNewlines),
    unified, ReadError.unified, unifyNewlines_cons (by simp)]

theorem unified_readPieces (opening s : Text) :
    readPieces opening.unifyNewlines s.unifyNewlines = unified (readPieces opening s) := by
  fun_induction readPieces opening s with
  | case1 => rfl
  | case2 rest =>
    rw [unifyNewlines_cons (by simp)]
    rfl
  | case3 => rfl
  | case4 a b c d n after tail hn ih =>
    rw [unifyNewlines_cons (by simp), unifyNewlines_cons (by simp), unifyNewlines_unit hn, unified_putFirst, ← ih]
    exact readPieces_of_pieceText _ (.unit hn) (unifyNewlines_ne_nil (List.cons_ne_nil _ _))
  | case5 a b c d after hno =>
    refine unified_of_no_unit ?_
    rintro ⟨_, _, _, _, n, t, hs, hn, ht⟩
    cases hs
    obtain ⟨x, xs, rfl⟩ := List.exists_cons_of_ne_nil ht
    exact hno n x xs hn rfl
  | case6 rest hno =>
    refine unified_of_no_unit ?_
    rintro ⟨_, _, _, _, _, _, hs, -, -⟩
    exact hno _ _ _ _ _ hs
  | case7 letter rest h₁ h₂ c hc ih =>
    have hreturn : letter ≠ .char '\r' := by
      rintro rfl
      cases hc
    rw [unifyNewlines_cons (by simp), unifyNewlines_cons hreturn, readPieces_short h₂ hc, unified_putFirst, ← ih]
  | case8 letter rest h₁ h₂ hc =>
    obtain ⟨letter', u, hu, hunified, hnone⟩ : ∃ letter' u, letter' ≠ .char 'u' ∧
        unifyNewlines (letter :: rest) = letter' :: u ∧ shortEscape? letter' = none := by
      by_cases hreturn : letter = .char '\r'
      · subst hreturn
        obtain ⟨u, hu⟩ := unifyNewlines_return rest
        exact ⟨_, _, by simp, hu, rfl⟩
      · exact ⟨letter, _, h₂, unifyNewlines_cons hreturn rest, hc⟩
    rw [unified, ReadError.unified, unifyNewlines_cons (by simp), hunified, readPieces_of_no_short hu hnone]
  | case9 c rest hquote h₁ h₂ h₃ h₄ hc =>
    have hbackslash : c ≠ .char '\\' := fun hc => by
      cases rest with
      | nil => exact h₁ hc rfl
      | cons x xs => exact h₄ x xs hc rfl
    obtain ⟨c', u, hquote', hbackslash', hunified, hcontrol⟩ : ∃ c' u, c' ≠ .char '"' ∧ c' ≠ .char '\\' ∧
        unifyNewlines (c :: rest) = c' :: u ∧ c'.toNat < 0x20 := by
      by_cases hreturn : c = .char '\r'
      · subst hreturn
        obtain ⟨u, hu⟩ := unifyNewlines_return rest
        exact ⟨_, _, by simp, by simp, hu, by decide⟩
      · exact ⟨c, _, hquote, hbackslash, unifyNewlines_cons hreturn rest, hc⟩
    rw [unified, ReadError.unified, hunified, readPieces_cons hquote' hbackslash', if_pos hcontrol]
  | case10 c rest hquote h₁ h₂ h₃ h₄ hc ih =>
    have hbackslash : c ≠ .char '\\' := fun hc => by
      cases rest with
      | nil => exact h₁ hc rfl
      | cons x xs => exact h₄ x xs hc rfl
    have hreturn : c ≠ .char '\r' := by
      rintro rfl
      exact hc (by decide)
    rw [unifyNewlines_cons hreturn, readPieces_cons hquote hbackslash, if_neg hc, unified_putFirst, ← ih]

theorem unified_readString (opening s : Text) :
    readString opening.unifyNewlines s.unifyNewlines = unified (readString opening s) := by
  rw [readString, unified_readPieces]
  exact unified_map fun _ _ => rfl

/-! ## Values -/

theorem isPrefixOf?_unifyNewlines {word : Text} (h : ∀ c ∈ word, EndsNoLine c) (s : Text) :
    word.isPrefixOf? s.unifyNewlines = (word.isPrefixOf? s).map unifyNewlines := by
  induction word generalizing s with
  | nil => rfl
  | cons c word ih =>
    obtain ⟨hc, hword⟩ := List.forall_mem_cons.mp h
    rcases unifyNewlines_cases s with rfl | ⟨d, t, -, rfl, hunified⟩ | ⟨t, u, rfl, hunified⟩
    · rfl
    · rw [hunified, isPrefixOf?_cons, isPrefixOf?_cons, ih hword]
      split <;> rfl
    · rw [hunified, isPrefixOf?_cons, isPrefixOf?_cons, if_neg (by simpa using hc.2), if_neg (by simpa using hc.1)]
      rfl

theorem endsNoLine_words (nanMark : Nat) : ∀ w ∈ words nanMark, ∀ c ∈ w.1, EndsNoLine c := by
  have hspellings : (words nanMark).map Prod.fst = (words 0).map Prod.fst := rfl
  have hwords : ∀ t ∈ (words 0).map Prod.fst, ∀ c ∈ t, EndsNoLine c := by
    unfold EndsNoLine
    decide
  exact fun w hw => hwords w.1 (hspellings ▸ List.mem_map_of_mem hw)

theorem findSome?_unifyNewlines {ws : List (Text × Json)} (h : ∀ w ∈ ws, ∀ c ∈ w.1, EndsNoLine c) (s : Text) :
    (ws.findSome? fun w => (w.1.isPrefixOf? s.unifyNewlines).map fun rest => (w.2, rest)) =
      (ws.findSome? fun w => (w.1.isPrefixOf? s).map fun rest => (w.2, rest)).map
        fun found => (found.1, unifyNewlines found.2) := by
  induction ws with
  | nil => rfl
  | cons w ws ih =>
    obtain ⟨hw, hws⟩ := List.forall_mem_cons.mp h
    rw [List.findSome?_cons, List.findSome?_cons, isPrefixOf?_unifyNewlines hw, ih hws]
    cases w.1.isPrefixOf? s <;> rfl

theorem unifies_readScalar (hplaces : limits.places = none) : Unifies (readScalar limits) := by
  intro s
  by_cases hquote : ∃ t, s = .char '"' :: t
  · obtain ⟨t, rfl⟩ := hquote
    have hstring := unified_readString (.char '"' :: t) t
    rw [unifyNewlines_cons (by simp)] at hstring ⊢
    rw [readScalar, hstring, readScalar]
    exact unified_map fun _ _ => rfl
  · have hquote := not_exists.mp hquote
    rw [readScalar_of_no_quote hquote, readScalar_of_no_quote (unifyNewlines_ne_cons (by simp) hquote),
      findSome?_unifyNewlines (endsNoLine_words _), unifies_readNumber hplaces s]
    cases (words limits.nanMark).findSome? fun w => (w.1.isPrefixOf? s).map fun rest => (w.2, rest) <;> rfl

section

variable {α : Type} {close : Char} {item : Reader α}

theorem unifies_readItems (hitem : Unifies item) (fuel : Nat) : Unifies (readItems close item fuel) := by
  induction fuel with
  | zero => exact fun s => rfl
  | succ fuel ih =>
    intro s
    rw [readItems, readItems, hitem s]
    refine unified_bind fun x rest => ?_
    dsimp only
    rw [skipSpace_unifyNewlines]
    rcases skipSpace_cases rest with hnil | ⟨c, behind, hc, hcons⟩
    · rw [hnil]
      rfl
    · rw [hcons, unifyNewlines_cons hc]
      dsimp only
      split
      · rfl
      · split
        · rw [skipSpace_unifyNewlines, ih]
          exact unified_bind fun xs rest => rfl
        · rw [unified, ReadError.unified, unifyNewlines_cons hc]

theorem unifies_readBracketed (hitem : Unifies item) (bound : Nat) : Unifies (readBracketed close item bound) := by
  intro s
  unfold readBracketed
  rw [skipSpace_unifyNewlines]
  rcases skipSpace_cases s with hnil | ⟨c, rest, hc, hcons⟩
  · rw [hnil]
    exact unifies_readItems hitem bound []
  · have hitems : readItems close item bound (unifyNewlines (c :: rest)) =
        unified (readItems close item bound (c :: rest)) :=
      unifies_readItems hitem bound (c :: rest)
    rw [unifyNewlines_cons hc] at hitems
    rw [hcons, unifyNewlines_cons hc]
    dsimp only
    split
    · rfl
    · exact hitems

end

theorem readKey_of_no_quote {s : Text} (h : ∀ t, s ≠ .char '"' :: t) : readKey s = .error (.malformed .name s) := by
  unfold readKey
  split
  · exact absurd rfl (h _)
  · rfl

/-- What stands behind a key, from its colon on. -/
def readColon (key : Text) : Text → Except ReadError (Text × Text)
  | .char ':' :: rest => .ok (key, skipSpace rest)
  | rest => .error (.malformed .colon rest)

theorem readKey_quote (s : Text) :
    readKey (.char '"' :: s) = readString (.char '"' :: s) s >>= fun p => readColon p.1 (skipSpace p.2) := rfl

theorem unifies_readColon (key : Text) : Unifies (readColon key) := by
  intro s
  by_cases hcolon : ∃ t, s = .char ':' :: t
  · obtain ⟨t, rfl⟩ := hcolon
    rw [unifyNewlines_cons (by simp)]
    exact congrArg (Except.ok ∘ Prod.mk key) (skipSpace_unifyNewlines t)
  · have hno {u : Text} (hu : ∀ t, u ≠ .char ':' :: t) : readColon key u = .error (.malformed .colon u) := by
      unfold readColon
      split
      · exact absurd rfl (hu _)
      · rfl
    have hcolon := not_exists.mp hcolon
    rw [hno hcolon, hno (unifyNewlines_ne_cons (by simp) hcolon)]
    rfl

theorem unifies_readKey : Unifies readKey := by
  intro s
  by_cases hquote : ∃ t, s = .char '"' :: t
  · obtain ⟨t, rfl⟩ := hquote
    have hstring := unified_readString (.char '"' :: t) t
    rw [unifyNewlines_cons (by simp)] at hstring ⊢
    rw [readKey_quote, readKey_quote, hstring]
    refine unified_bind fun key rest => ?_
    dsimp only
    rw [skipSpace_unifyNewlines, unifies_readColon]
  · have hquote := not_exists.mp hquote
    rw [readKey_of_no_quote hquote, readKey_of_no_quote (unifyNewlines_ne_cons (by simp) hquote)]
    rfl

theorem unifies_readMember {item : Reader Json} (hitem : Unifies item) : Unifies (readMember item) := by
  intro s
  rw [readMember, readMember, unifies_readKey s]
  refine unified_bind fun key rest => ?_
  dsimp only
  rw [hitem rest]
  exact unified_bind fun x rest => rfl

theorem unified_readValue_of_no_bracket (hplaces : limits.places = none) {bound depth : Nat} {s : Text}
    (harray : ∀ t, s ≠ .char '[' :: t) (hobject : ∀ t, s ≠ .char '{' :: t) :
    readValue limits bound depth s.unifyNewlines = unified (readValue limits bound depth s) := by
  rw [readValue_of_no_bracket harray hobject, readValue_of_no_bracket (unifyNewlines_ne_cons (by simp) harray)
    (unifyNewlines_ne_cons (by simp) hobject), unifies_readScalar hplaces s]

theorem unifies_readValue (hplaces : limits.places = none) (bound depth : Nat) :
    Unifies (readValue limits bound depth) := by
  induction depth with
  | zero =>
    intro s
    by_cases harray : ∃ t, s = .char '[' :: t
    · obtain ⟨t, rfl⟩ := harray
      rw [unifyNewlines_cons (by simp)]
      rfl
    by_cases hobject : ∃ t, s = .char '{' :: t
    · obtain ⟨t, rfl⟩ := hobject
      rw [unifyNewlines_cons (by simp)]
      rfl
    · exact unified_readValue_of_no_bracket hplaces (not_exists.mp harray) (not_exists.mp hobject)
  | succ depth ih =>
    intro s
    by_cases harray : ∃ t, s = .char '[' :: t
    · obtain ⟨t, rfl⟩ := harray
      rw [unifyNewlines_cons (by simp), readValue, unifies_readBracketed ih bound t]
      exact unified_map fun _ _ => rfl
    by_cases hobject : ∃ t, s = .char '{' :: t
    · obtain ⟨t, rfl⟩ := hobject
      rw [unifyNewlines_cons (by simp), readValue, unifies_readBracketed (unifies_readMember ih) bound t]
      exact unified_map fun _ _ => rfl
    · exact unified_readValue_of_no_bracket hplaces (not_exists.mp harray) (not_exists.mp hobject)

/-! ## Whole texts -/

/-- A value is read off a text with its line ends unified as off the text, whatever the lengths of both. -/
theorem readValue_unifyNewlines (hplaces : limits.places = none) (depth : Nat) (s : Text) :
    readValue limits (s.unifyNewlines.length + 1) depth (skipSpace s.unifyNewlines) =
      unified (readValue limits (s.length + 1) depth (skipSpace s)) := by
  have hunified := length_skipSpace_le s.unifyNewlines
  have hshorter := length_unifyNewlines_le s
  rw [readValue_eq_of_bounds hplaces depth (Nat.lt_succ_of_le hunified)
      (Nat.lt_succ_of_le (Nat.le_trans hunified hshorter)),
    skipSpace_unifyNewlines, unifies_readValue hplaces]

/-- A whole text with its line ends unified writes the same document, or is at fault in the same way. -/
theorem read_unifyNewlines (hplaces : limits.places = none) (s : Text) :
    read limits s.unifyNewlines = (read limits s).mapError ReadError.unified := by
  by_cases hmark : s.head? = some (.char '\uFEFF')
  · obtain ⟨t, rfl⟩ := List.head?_eq_some_iff.mp hmark
    rw [read, read, unifyNewlines_cons (by simp), if_pos List.head?_cons, if_pos hmark, mapError_error,
      ReadError.unified,
      unifyNewlines_cons (by simp)]
  · have hmark' : s.unifyNewlines.head? ≠ some (.char '\uFEFF') := by
      intro h
      obtain ⟨t, ht⟩ := List.head?_eq_some_iff.mp h
      obtain ⟨u, rfl, -⟩ := exists_of_unifyNewlines_eq_cons ht (by simp)
      exact hmark rfl
    rw [read, read, if_neg hmark, if_neg hmark', readValue_unifyNewlines hplaces]
    cases readValue limits (s.length + 1) limits.depth (skipSpace s) with
    | error e => rfl
    | ok p =>
      dsimp only [bind, Except.bind, unified]
      rw [skipSpace_unifyNewlines]
      rcases skipSpace_cases p.2 with hnil | ⟨c, rest, hc, hcons⟩
      · rw [hnil]
        rfl
      · rw [hcons, unifyNewlines_cons hc]
        dsimp only
        rw [mapError_error, ReadError.unified, unifyNewlines_cons hc]

end Json

end FieldForest
