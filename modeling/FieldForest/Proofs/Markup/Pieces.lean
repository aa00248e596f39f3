/-
  FieldForest.Proofs.Markup.Pieces — the stretches of text between tags.

  A terminal looks for emoji in each stretch of text between two tags on its own. So a marked-up
  text is shown as what it leaves if no stretch of it has the code of an emoji. No such code has a
  blank in it, so behind words that end in one emoji are looked for as if nothing stood in front.

  Proved:
  - `flatten_pieces`: a marked-up text leaves its stretches one behind the other.
  - `Keeps.emojied_eq` / `keeps_of_count_le`: texts without the code of an emoji, and which these are.
  - `emojied_append`: emoji in front of a blank and behind it.
-/
import FieldForest.Console
import FieldForest.Proofs.Markup.Unmarked
import FieldForest.Trace

namespace FieldForest

namespace Markup

/-! ## What the stretches leave -/

/-- The stretches are what the tokens leave, cut at the tags. -/
theorem flatten_piecesBehind (part : Text) (ts : List Token) :
    (piecesBehind part ts).flatten = part.reverse ++ ts.flatMap Token.leaves := by
  induction ts generalizing part with
  | nil => simp [piecesBehind]
  | cons t ts ih =>
    cases t with
    | plain c =>
      rw [piecesBehind, ih]
      simp
    | bracket n =>
      rw [piecesBehind, ih]
      simp
    | tag n inside =>
      rw [piecesBehind, List.flatMap_cons]
      by_cases hodd : n % 2 = 1
      · rw [if_pos hodd, Token.leaves_tag_odd hodd]
        simp [ih]
      · rw [if_neg hodd, Token.leaves_tag_even hodd]
        simp [ih]

theorem flatten_pieces {s : Text} {marked : Marked} (h : read s = .ok marked) : (pieces s).flatten = marked.text := by
  obtain ⟨p, hp, rfl⟩ := map_eq_ok_iff.mp h
  exact (flatten_piecesBehind [] (tokens s)).trans (Progress.read_of_foldlM hp).symm

theorem piecesBehind_plain (part t : Text) : piecesBehind part (t.map .plain) = [part.reverse ++ t] := by
  induction t generalizing part with
  | nil => simp [piecesBehind]
  | cons c t ih => simp [piecesBehind, ih]

theorem pieces_of_noBracket {t : Text} (h : .char '[' ∉ t) : pieces t = [t] := by
  rw [pieces, tokens_of_noBracket h, piecesBehind_plain]
  rfl

/-- Marked-up text that is complete on its own and ends in a blank. -/
def EndsInBlank (front : Text) : Prop :=
  ∃ ts c, (c = ' ' ∨ c = '\n') ∧ ∀ rest, tokens (front ++ rest) = ts ++ .plain (.char c) :: tokens rest

theorem blank_ne {c : Char} (hc : c = ' ' ∨ c = '\n') :
    CodePoint.char c ≠ .char '\\' ∧ CodePoint.char c ≠ .char '[' := by
  rcases hc with rfl | rfl <;> decide

theorem Reads.endsInBlank {x t : Text} {p q : Progress} (h : Reads x p q) (ht : .char '[' ∉ t) {c : Char}
    (hc : c = ' ' ∨ c = '\n') : EndsInBlank (x ++ (t ++ [.char c])) := by
  obtain ⟨ts, htokens, -⟩ := h
  refine ⟨ts ++ t.map .plain, c, hc, fun rest => ?_⟩
  obtain ⟨hslash, hopen⟩ := blank_ne hc
  have hword : tokens (t ++ .char c :: rest) = (t ++ [CodePoint.char c]).map .plain ++ tokens rest :=
    tokensBehind_noBracket ht hslash hopen 0 rest
  rw [List.append_assoc, List.append_assoc, htokens, List.singleton_append, hword]
  simp

end Markup

/-! ## Emoji -/

namespace Terminal

variable (terminal : Terminal)

theorem emoji_nil : terminal.emoji [] = [] := terminal.emoji_of_count_le [] (Nat.zero_le 1)

/-- No stretch of a marked-up text has the code of an emoji in it. -/
def Keeps (s : Text) : Prop := ∀ piece ∈ Markup.pieces s, terminal.emoji piece = piece

theorem keeps_plain (s : Text) : Terminal.plain.Keeps s := fun _ _ => rfl

variable {terminal}

theorem Keeps.emojied_eq {s : Text} (h : terminal.Keeps s) : terminal.emojied s = (Markup.pieces s).flatten := by
  rw [emojied, List.flatMap, List.map_congr_left h, List.map_id']

variable (terminal)

theorem keeps_of_count_le {s : Text} (h : ∀ piece ∈ Markup.pieces s, piece.count (.char ':') ≤ 1) : terminal.Keeps s :=
  fun piece hpiece => terminal.emoji_of_count_le piece (h piece hpiece)

/-- With emoji in it a text can be printed as it can be without. -/
theorem hasLoneSurrogate_emojied {s : Text} {marked : Markup.Marked} (hread : Markup.read s = .ok marked)
    (h : marked.text.hasLoneSurrogate = false) : (terminal.emojied s).hasLoneSurrogate = false := by
  rw [← Markup.flatten_pieces hread, Text.hasLoneSurrogate, List.any_flatten, List.any_eq_false] at h
  rw [emojied, Text.hasLoneSurrogate, List.any_flatMap, List.any_eq_false]
  intro piece hpiece
  have hchars := terminal.emoji_chars piece (Bool.eq_false_iff.mpr (h piece hpiece))
  exact Bool.eq_false_iff.mp hchars

theorem emojied_of_noBracket {t : Text} (h : .char '[' ∉ t) : terminal.emojied t = terminal.emoji t := by
  rw [emojied, Markup.pieces_of_noBracket h, List.flatMap_singleton]

section

variable {c : Char} (hc : c = ' ' ∨ c = '\n')

include hc

/-- In front of the first tag emoji are looked for on both sides of a blank. -/
theorem flatMap_piecesBehind_blank (front part : Text) (ts : List Markup.Token) :
    (Markup.piecesBehind (part ++ .char c :: front) ts).flatMap terminal.emoji =
      terminal.emoji front.reverse ++ .char c :: (Markup.piecesBehind part ts).flatMap terminal.emoji := by
  have hspace (part : Text) : terminal.emoji (part ++ .char c :: front).reverse =
      terminal.emoji front.reverse ++ .char c :: terminal.emoji part.reverse := by
    rw [← terminal.emoji_blank _ _ c hc]
    simp
  induction ts generalizing part with
  | nil => simp only [Markup.piecesBehind, List.flatMap_singleton, hspace]
  | cons t ts ih =>
    cases t with
    | plain d => exact ih (d :: part)
    | bracket n =>
      have hpart := ih (.char '[' :: List.replicate (n - 1) (.char '\\') ++ part)
      simpa only [Markup.piecesBehind, List.append_assoc, List.cons_append] using hpart
    | tag n inside =>
      simp only [Markup.piecesBehind, List.cons_append, List.flatMap_cons, hspace, List.append_assoc]

theorem flatMap_piecesBehind_append (part : Text) (ts us : List Markup.Token) :
    (Markup.piecesBehind part (ts ++ .plain (.char c) :: us)).flatMap terminal.emoji =
      (Markup.piecesBehind part (ts ++ [.plain (.char c)])).flatMap terminal.emoji ++
        (Markup.piecesBehind [] us).flatMap terminal.emoji := by
  induction ts generalizing part with
  | nil =>
    have hfront := terminal.flatMap_piecesBehind_blank hc part [] us
    have halone := terminal.flatMap_piecesBehind_blank hc part [] []
    rw [List.nil_append] at hfront halone
    simp only [List.nil_append, Markup.piecesBehind] at halone ⊢
    rw [hfront, halone]
    simp [terminal.emoji_nil]
  | cons t ts ih =>
    cases t with
    | plain d => exact ih (d :: part)
    | bracket n => exact ih _
    | tag n inside =>
      simp only [List.cons_append, Markup.piecesBehind, List.flatMap_cons, List.flatMap_append, ih, List.append_assoc]

end

/-- Behind words that end in a blank emoji are looked for as if nothing stood in front. -/
theorem emojied_append {front : Text} (h : Markup.EndsInBlank front) (rest : Text) :
    terminal.emojied (front ++ rest) = terminal.emojied front ++ terminal.emojied rest := by
  obtain ⟨ts, c, hc, htokens⟩ := h
  have halone : Markup.tokens front = ts ++ [.plain (.char c)] := by
    have := htokens []
    rwa [List.append_nil, Markup.tokens_nil] at this
  unfold emojied Markup.pieces
  rw [htokens, halone]
  exact terminal.flatMap_piecesBehind_append hc [] ts _

/-- The same holds within what is escaped. -/
theorem emojied_escape_append {t : Text} (ht : .char '[' ∉ t) {c : Char} (hc : c = ' ' ∨ c = '\n') (s : Text) :
    terminal.emojied (Markup.escape (t ++ .char c :: s)) =
      terminal.emoji t ++ .char c :: terminal.emojied (Markup.escape s) := by
  obtain ⟨hslash, hopen⟩ := Markup.blank_ne hc
  have hword : .char '[' ∉ t ++ [CodePoint.char c] := by
    rw [List.mem_append, List.mem_singleton, not_or]
    exact ⟨ht, hopen.symm⟩
  have hends : Markup.EndsInBlank ([] ++ (t ++ [.char c])) :=
    Markup.Reads.endsInBlank (p := .start) ⟨[], fun _ => rfl, rfl⟩ ht hc
  have hemoji := terminal.emoji_blank t [] c hc
  rw [terminal.emoji_nil] at hemoji
  have happend := terminal.emojied_append hends (Markup.escape s)
  rw [List.nil_append, terminal.emojied_of_noBracket hword, hemoji] at happend
  rw [Markup.escape_append ht hslash hopen, List.append_cons, happend, List.append_assoc, List.singleton_append]

end Terminal

end FieldForest
