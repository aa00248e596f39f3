/-
  FieldForest.Proofs.Json.Strings — a string is written as one of its texts.

  Each code point of a string is written on its own: what is written for it is one piece, and
  that piece joins to the code point whatever pieces follow. A 16-bit unit that is written
  stands for a control character, which is no half of a surrogate pair, so no two pieces join
  to one character.

  Proved:
  - `pieceText_escaped`: what is written for a code point is the text of one such piece.
  - `stringText_writeString`: what is written for a string is a text of it.
  - `hasLoneSurrogate_writeString`: its text has halves of surrogate pairs only if it has.
-/
import FieldForest.Proofs.Json.Grammar
import FieldForest.Json.Writer

namespace FieldForest.Json

/-- A piece that is this code point in a string, whatever pieces follow. -/
def StandsFor (p : Piece) (c : CodePoint) : Prop := ∀ ps, joinPieces (p :: ps) = c :: joinPieces ps

theorem standsFor_point (c : CodePoint) : StandsFor (.point c) c := fun _ => rfl

/-- A control character is no half of a surrogate pair. -/
theorem standsFor_unit {c : Char} (h : c.toNat < 0x20) : StandsFor (.unit c.toNat) (.char c) := by
  have hunit : CodePoint.ofUnit c.toNat = .char c := by
    rw [CodePoint.ofUnit, if_neg (by omega), Char.ofNat_toNat]
  have hhigh : isHighSurrogate c.toNat = false := by
    rw [isHighSurrogate, Bool.and_eq_false_iff]
    exact .inl (by simp; omega)
  intro ps
  cases ps with
  | nil => simp [joinPieces, hunit]
  | cons p ps =>
    cases p with
    | point d => simp [joinPieces, hunit]
    | unit n => rw [joinPieces, hhigh, if_neg (by simp), hunit]

/-- The unit that a hexadecimal escape of four digits writes. -/
def unitOf? : Text → Option Nat
  | [a, b, c, d] => hexUnit? a b c d
  | _ => none

theorem unitOf?_ofHex : ∀ n < 0x20, unitOf? (Text.ofHex 4 n) = some n := by decide

theorem pieceText_ofHex {n : Nat} (hn : n < 0x20) :
    PieceText (.unit n) (.char '\\' :: .char 'u' :: Text.ofHex 4 n) := by
  have hunit := unitOf?_ofHex n hn
  unfold unitOf? at hunit
  split at hunit
  · rename_i a b c d heq
    rw [heq]
    exact .unit hunit
  · cases hunit

/-- What is written for a code point is the text of one piece. -/
theorem pieceText_escaped (c : CodePoint) : ∃ p, StandsFor p c ∧ PieceText p (escaped c) := by
  unfold escaped
  split
  · exact ⟨_, standsFor_point _, .short rfl⟩
  · exact ⟨_, standsFor_point _, .short rfl⟩
  · exact ⟨_, standsFor_point _, .short rfl⟩
  · exact ⟨_, standsFor_point _, .short rfl⟩
  · exact ⟨_, standsFor_point _, .short rfl⟩
  · exact ⟨_, standsFor_point _, .short rfl⟩
  · exact ⟨_, standsFor_point _, .short rfl⟩
  · rename_i hquote hbackslash _ _ _ _ _
    split
    · rename_i hcontrol
      cases c with
      | char c => exact ⟨_, standsFor_unit hcontrol, pieceText_ofHex hcontrol⟩
      | loneSurrogate n => exact absurd hcontrol (by simp only [CodePoint.toNat]; omega)
    · rename_i hprintable
      exact ⟨_, standsFor_point c, .plain hquote hbackslash hprintable⟩

/-- The pieces of a written string join to the string. -/
theorem piecesText_flatMap (t : Text) : ∃ ps, joinPieces ps = t ∧ PiecesText ps (t.flatMap escaped) := by
  induction t with
  | nil => exact ⟨[], rfl, .nil⟩
  | cons c t ih =>
    obtain ⟨ps, hjoin, hps⟩ := ih
    obtain ⟨p, hp, hc⟩ := pieceText_escaped c
    exact ⟨p :: ps, by rw [hp, hjoin], .cons hc hps⟩

/-- A string is written as one of its texts. -/
theorem stringText_writeString (t : Text) : StringText t (writeString t) := by
  obtain ⟨ps, hjoin, hps⟩ := piecesText_flatMap t
  have hquoted := StringText.quoted hps
  rw [hjoin] at hquoted
  exact hquoted

/-! ## Halves of surrogate pairs -/

theorem hasLoneSurrogate_ofChars (cs : List Char) : (Text.ofChars cs).hasLoneSurrogate = false := by
  simp [Text.hasLoneSurrogate, Text.ofChars, CodePoint.isLoneSurrogate]

theorem hasLoneSurrogate_append (t u : Text) :
    Text.hasLoneSurrogate (t ++ u) = (t.hasLoneSurrogate || u.hasLoneSurrogate) := List.any_append

theorem hasLoneSurrogate_escaped (c : CodePoint) : Text.hasLoneSurrogate (escaped c) = c.isLoneSurrogate := by
  unfold escaped
  split
  · rfl
  · rfl
  · rfl
  · rfl
  · rfl
  · rfl
  · rfl
  · split
    · cases c with
      | char c => exact hasLoneSurrogate_ofChars _
      | loneSurrogate n =>
        rename_i hcontrol
        exact absurd hcontrol (by simp only [CodePoint.toNat]; omega)
    · simp [Text.hasLoneSurrogate]

theorem hasLoneSurrogate_writeString (t : Text) : (writeString t).hasLoneSurrogate = t.hasLoneSurrogate := by
  have hbody : Text.hasLoneSurrogate (t.flatMap escaped) = t.hasLoneSurrogate := by
    rw [Text.hasLoneSurrogate, List.any_flatMap]
    exact congrArg (List.any t) (funext hasLoneSurrogate_escaped)
  have hquote : CodePoint.isLoneSurrogate (.char '"') = false := rfl
  rw [writeString, hasLoneSurrogate_append]
  simp only [Text.hasLoneSurrogate, List.any_cons, List.any_nil, hquote, Bool.or_false, Bool.false_or] at hbody ⊢
  exact hbody

end FieldForest.Json
