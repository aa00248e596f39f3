/-
  FieldForest.Proofs.Forest.Labels — labels, read character for character.

  A label is put together of pieces: words in a style, and the field's own texts, which are
  escaped. A piece leaves its text wherever it stands, so a label can always be read and leaves
  what its pieces leave one behind the other. That is the text of the field unless backslashes
  get lost: in front of a bracket that opens no tag, or at the end of the id or the type if there
  are two or more, since the tag that closes the style takes them. Behind three the tag itself is
  shown. The options end in a parenthesis, so at their end nothing gets lost.

  Proved:
  - `Passes.append` / `OwnStyle.passes`: what pieces leave, one behind the other and in a style.
  - `OwnStyle.exists_passes_escape` / `passes_settings`: the pieces of a field's own texts.
  - `getLast?_settingsText_ne`: options do not end in a backslash.
  - `exists_passes_labelOf`: a label.
  - `drawAt_eq_ok`: the outline of a field can always be drawn.
  - `label_literal_iff`: a label shows the texts of the field exactly if no backslash gets lost.
-/
import FieldForest.Proofs.Markup.Fronts
import FieldForest.Proofs.Value.Shown

namespace FieldForest

namespace Console

open Markup (Progress Reads Token)

/-! ## Pieces -/

/-- Only the program's own styles are given so far. -/
def StyledAsMeant (p : Progress) : Prop := HasStyles (· ∈ ownStyles) p

/-- `Passes x left`: the marked-up text `x` leaves the text `left` wherever it stands, and gives none but the
    program's own styles. -/
def Passes (x left : Text) : Prop :=
  ∀ p, StyledAsMeant p → ∃ q, Reads x p q ∧ StyledAsMeant q ∧ q.read.reverse = p.read.reverse ++ left

namespace Passes

variable {x y left right : Text}

theorem append (hx : Passes x left) (hy : Passes y right) : Passes (x ++ y) (left ++ right) := by
  intro p hp
  obtain ⟨q, hread, hq, hleft⟩ := hx p hp
  obtain ⟨r, hread', hr, hright⟩ := hy q hq
  refine ⟨r, hread.append hread', hr, ?_⟩
  rw [hright, hleft, List.append_assoc]

theorem nil : Passes [] [] := by
  intro p hp
  exact ⟨p, ⟨[], fun _ => rfl, rfl⟩, hp, (List.append_nil _).symm⟩

theorem text {t : Text} {c : CodePoint} (ht : .char '[' ∉ t) (hlast : t.getLast? = some c) (hc : c ≠ .char '\\') :
    Passes t t := by
  obtain ⟨u, rfl⟩ := List.getLast?_eq_some_iff.mp hlast
  rw [List.mem_append, not_or, List.mem_singleton] at ht
  intro p hp
  exact ⟨p.put (u ++ [c]), .plain ht.1 hc fun ho => ht.2 ho.symm, hp.put _, p.read_put _⟩

/-- On its own a piece tells its text. -/
theorem tells (h : Passes x left) : Tells x left := by
  obtain ⟨q, hread, hq, hleft⟩ := h .start .start
  exact ⟨q, hread.read_eq, hq.imp fun _ hstyle => (ownStyle_of_mem hstyle).readable, hleft⟩

theorem exists_read (h : Passes x left) :
    ∃ marked, Markup.read x = .ok marked ∧ marked.text = left ∧ ∀ s ∈ marked.stretches, s.style ∈ ownStyles := by
  obtain ⟨q, hread, hq, hleft⟩ := h .start .start
  exact ⟨q.marked, hread.read_eq, hleft, hq.marked⟩

end Passes

theorem styled_eq (style x : Text) :
    Outline.styled style x = Markup.tagText style ++ (x ++ Markup.tagText ("/" ++ style)) := by
  simp [Markup.tagText, Outline.styled, Text.ofString, Text.ofChars]

section

variable {style : Text} (h : style ∈ ownStyles)

include h

/-- The tag that closes a style, with backslashes in front. -/
theorem token_close (k : Nat) {p : Progress} (hp : StyledAsMeant p) {start : Nat} {opened : List Markup.OpenTag}
    (hopened : p.opened = ⟨style, none, start⟩ :: opened) :
    ∃ q, p.token (.tag k ("/" ++ style)) = .ok q ∧ StyledAsMeant q := by
  unfold Progress.token
  dsimp only
  by_cases hodd : k % 2 = 1
  · rw [if_pos hodd]
    exact ⟨_, rfl, (hp.put _).put _⟩
  · rw [if_neg hodd, (ownStyle_of_mem h).tag_close_eq (p.put (List.replicate (k / 2) (.char '\\'))) hopened]
    refine ⟨_, rfl, ⟨fun t ht => ?_, List.forall_mem_cons.mpr ⟨h, hp.stretches⟩⟩⟩
    exact hp.opened t (hopened ▸ List.mem_cons_of_mem _ ht)

/-- What is left of a text in a style is what its tokens and the closing tag leave. -/
theorem passes_styled {x : Text} {ts : List Token} {k : Nat}
    (htokens : ∀ y, Markup.tokens (x ++ (Markup.tagText ("/" ++ style) ++ y)) =
      ts ++ .tag k ("/" ++ style) :: Markup.tokens y)
    (hliteral : ∀ t ∈ ts, t.IsLiteral) :
    Passes (Outline.styled style x) (ts.flatMap Token.left ++ (Token.tag k ("/" ++ style)).leaves) := by
  intro p hp
  let opened : Progress := { p with opened := ⟨style, none, p.read.length⟩ :: p.opened }
  have hstyled : StyledAsMeant (opened.put (ts.flatMap Token.left)) :=
    ⟨List.forall_mem_cons.mpr ⟨h, hp.opened⟩, hp.stretches⟩
  obtain ⟨q, hclose, hq⟩ := token_close h k hstyled rfl
  refine ⟨q, ⟨Token.tag 0 style :: (ts ++ [Token.tag k ("/" ++ style)]), fun y => ?_, ?_⟩, hq, ?_⟩
  · rw [styled_eq, List.append_assoc, Markup.tokens_tag (ownStyle_of_mem h).opens, List.append_assoc, htokens]
    simp
  · rw [List.foldlM_cons]
    show (p.tag style >>= _) = _
    rw [(ownStyle_of_mem h).tag_eq]
    show (ts ++ [Token.tag k ("/" ++ style)]).foldlM Progress.token opened = _
    rw [List.foldlM_append, Progress.foldlM_of_isLiteral opened hliteral]
    show ((opened.put (ts.flatMap Token.left)).token (.tag k ("/" ++ style)) >>= pure) = _
    rw [bind_pure, hclose]
  · rw [Progress.read_of_token hclose, Progress.read_put, List.append_assoc]

/-- A word in a style. -/
theorem passes_word {t : Text} {c : CodePoint} (ht : .char '[' ∉ t) (hc : c ≠ .char '\\') (ho : c ≠ .char '[') :
    Passes (Outline.styled style (t ++ [c])) (t ++ [c]) := by
  have htokens (y : Text) : Markup.tokens (t ++ [c] ++ (Markup.tagText ("/" ++ style) ++ y)) =
      (t ++ [c]).map Token.plain ++ .tag 0 ("/" ++ style) :: Markup.tokens y := by
    rw [List.append_assoc, List.singleton_append, Markup.tokens, Markup.tokensBehind_noBracket ht hc ho,
      Markup.tokens_tag (ownStyle_of_mem h).closes]
    rfl
  have hpasses := passes_styled h htokens (List.forall_mem_map.mpr fun _ _ => trivial)
  rw [Markup.left_plain, Token.leaves_tag_even (by decide)] at hpasses
  simpa using hpasses

/-- An escaped text in a style. -/
theorem exists_passes_escape (s : Text) :
    ∃ left, Passes (Outline.styled style (Markup.escape s)) left ∧ Markup.Shows left s := by
  obtain ⟨body, k, rfl, hbody⟩ := Markup.exists_backslashes_behind s
  refine ⟨_, passes_styled h (Markup.tokens_escape_tagged hbody k (ownStyle_of_mem h).closes) ?_,
    Markup.shows_tagged hbody k ("/" ++ style)⟩
  exact List.forall_mem_map.mpr fun t _ => Markup.isLiteral_literal t

/-- An escaped text in parentheses in a style. -/
theorem passes_parenthesized {s : Text} (hs : s.getLast? ≠ some (.char '\\')) :
    Passes (Outline.styled style ("(" ++ Markup.escape s ++ ")"))
      ("(" ++ Markup.leftOfTokens (Markup.tokens s) ++ ")") := by
  let literal := (Markup.tokens s).map Token.literal
  have hescape : Markup.escape s = Markup.escapedBehind 0 s := by
    have hescape := Markup.escape_append_backslashes hs 0
    rwa [List.replicate_zero, List.append_nil, Markup.escapedEnd, if_neg Nat.zero_ne_one, List.replicate_zero,
      List.append_nil] at hescape
  have htokens (y : Text) : Markup.tokens ("(" ++ Markup.escape s ++ ")" ++ (Markup.tagText ("/" ++ style) ++ y)) =
      (.plain (.char '(') :: literal ++ [.plain (.char ')')]) ++ .tag 0 ("/" ++ style) :: Markup.tokens y := by
    have hclosing : Markup.untilClosing (.char ')' :: (Markup.tagText ("/" ++ style) ++ y)) = none := rfl
    have hfront (t : Text) : Markup.tokens (.char '(' :: t) = .plain (.char '(') :: Markup.tokens t :=
      Markup.tokensBehind_plain 0 t (by decide) (by decide)
    have hback (t : Text) : Markup.tokens (.char ')' :: t) = .plain (.char ')') :: Markup.tokens t :=
      Markup.tokensBehind_plain 0 t (by decide) (by decide)
    have hlast := Markup.getLast?_escapedBehind (n := 0) (fun _ => rfl) hs
    rw [List.append_assoc, List.append_assoc]
    show Markup.tokens (.char '(' :: (Markup.escape s ++ .char ')' :: (Markup.tagText ("/" ++ style) ++ y))) = _
    rw [hfront, hescape, Markup.tokens, Markup.tokensBehind_append hclosing hlast fun _ => rfl, ← Markup.tokens, hback,
      Markup.tokens_escapedBehind_alone, Markup.tokens_tag (ownStyle_of_mem h).closes]
    simp [literal]
  have hliteral : ∀ t ∈ Token.plain (.char '(') :: literal ++ [.plain (.char ')')], t.IsLiteral := by
    intro t ht
    rw [List.mem_append, List.mem_cons, List.mem_singleton] at ht
    rcases ht with (rfl | ht) | rfl
    · trivial
    · obtain ⟨u, -, rfl⟩ := List.mem_map.mp ht
      exact Markup.isLiteral_literal u
    · trivial
  have hleft : (Token.plain (.char '(') :: literal ++ [Token.plain (.char ')')]).flatMap Token.left =
      "(" ++ Markup.leftOfTokens (Markup.tokens s) ++ ")" := by
    rw [List.flatMap_append, List.flatMap_cons]
    rfl
  have hpasses := passes_styled h htokens hliteral
  rw [hleft, Token.leaves_tag_even (by decide)] at hpasses
  rwa [Nat.zero_div, List.replicate_zero, List.append_nil] at hpasses

end

end Console

/-! ## The end of the options -/

/-- Options do not end in a backslash, as no value is shown with one at the end. -/
theorem Field.getLast?_settingsText_ne (f : Field) : f.settingsText.getLast? ≠ some (.char '\\') := by
  by_cases h : f.settings = []
  · rw [settingsText, h]
    intro hlast
    cases hlast
  · exact Text.getLast?_ne_of_endsIn (endsIn_settingsText h) rfl

/-! ## Labels -/

namespace Outline

open Console (Passes)
open Markup (IsKept KeepsBackslashes Loses)

/-- The options in parentheses, if there are any. -/
def settingsWords (f : Field) : Text := if f.settings.isEmpty then [] else " (" ++ f.settingsText ++ ")"

/-- What a label is to show: the id, the type, the word for the flag and the other options. -/
def labelText (f : Field) : Text :=
  f.id ++ ": " ++ f.type ++ " " ++ Field.flagWord f.required ++ settingsWords f

/-- All of a field's texts are left in its label. -/
structure IsLiteral (f : Field) : Prop where
  id : IsKept f.id
  type : IsKept f.type
  settings : KeepsBackslashes f.settingsText

theorem passes_flagMarkup (required : Bool) : Passes (flagMarkup required) (Field.flagWord required) := by
  cases required with
  | true => exact Console.passes_word (by decide) (t := "require") (c := .char 'd') (by decide) (by decide) (by decide)
  | false => exact Console.passes_word (by decide) (t := "optiona") (c := .char 'l') (by decide) (by decide) (by decide)

/-- Of the options in a label everything is left, or else a backslash gets lost. -/
theorem exists_passes_settingsMarkup (f : Field) :
    ∃ left, Passes (settingsMarkup f) left ∧
      ((KeepsBackslashes f.settingsText ∧ left = settingsWords f) ∨
        (¬ KeepsBackslashes f.settingsText ∧ Loses left (settingsWords f))) := by
  unfold settingsMarkup settingsWords
  by_cases hempty : f.settings.isEmpty = true
  · rw [if_pos hempty, if_pos hempty]
    have htext : f.settingsText = [] := by
      rw [Field.settingsText, List.isEmpty_iff.mp hempty]
      rfl
    rw [htext]
    exact ⟨[], .nil, .inl ⟨Markup.keepsBackslashes_nil, rfl⟩⟩
  · rw [if_neg hempty, if_neg hempty]
    have hspace : Passes " " " " := .text (c := .char ' ') (by decide) rfl (by decide)
    have hdim : ("dim" : Text) ∈ Console.ownStyles := by decide
    have hoptions := Console.passes_parenthesized hdim f.getLast?_settingsText_ne
    refine ⟨_, hspace.append hoptions, ?_⟩
    rcases Markup.left_or_loses f.settingsText with ⟨hkeeps, hleft⟩ | ⟨hkeeps, hloses⟩
    · left
      refine ⟨hkeeps, ?_⟩
      rw [hleft]
      rfl
    · right
      refine ⟨hkeeps, ?_⟩
      have h := ((hloses ")").append ")" []).behind " ("
      rw [List.append_nil] at h
      exact h

theorem exists_passes_labelOf (f : Field) :
    ∃ left, Passes (labelOf f) left ∧ (left = labelText f ↔ IsLiteral f) := by
  have hcyan : ("cyan" : Text) ∈ Console.ownStyles := by decide
  have hmagenta : ("magenta" : Text) ∈ Console.ownStyles := by decide
  obtain ⟨id, hid, hshowsId⟩ := Console.exists_passes_escape hcyan f.id
  obtain ⟨type, htype, hshowsType⟩ := Console.exists_passes_escape hmagenta f.type
  obtain ⟨settings, hsettings, hshowsSettings⟩ := exists_passes_settingsMarkup f
  have hcolon : Passes ": " ": " := .text (c := .char ' ') (by decide) rfl (by decide)
  have hspace : Passes " " " " := .text (c := .char ' ') (by decide) rfl (by decide)
  have hflag := passes_flagMarkup f.required
  refine ⟨_, ((((hid.append hcolon).append htype).append hspace).append hflag).append hsettings, ?_⟩
  have hrest : settings = settingsWords f ↔ KeepsBackslashes f.settingsText := by
    rcases hshowsSettings with ⟨hkeeps, hleft⟩ | ⟨hkeeps, hloses⟩
    · exact iff_of_true hleft hkeeps
    · exact iff_of_false hloses.ne hkeeps
  unfold labelText
  simp only [List.append_assoc]
  show id ++ .char ':' :: (.char ' ' :: (type ++ .char ' ' :: (Field.flagWord f.required ++ settings))) =
    f.id ++ .char ':' :: (.char ' ' :: (f.type ++ .char ' ' :: (Field.flagWord f.required ++ settingsWords f))) ↔ _
  rw [hshowsId.append_eq_iff (by decide), List.cons_inj_right, hshowsType.append_eq_iff (by decide),
    List.append_cancel_left_eq, hrest]
  exact ⟨fun h => ⟨h.1, h.2.1, h.2.2⟩, fun h => ⟨h.id, h.type, h.settings⟩⟩

/-! ## Drawing -/

variable (terminal : Terminal)

mutual

/-- Every label can be shown, so every outline of fields can be drawn. -/
theorem drawAt_eq_ok (first others : Text) : ∀ f : Field, ∃ lines, drawAt terminal first others (ofField f) = .ok lines
  | .mk id type leading required trailing fields => by
    obtain ⟨left, hleft, -⟩ := exists_passes_labelOf (.mk id type leading required trailing fields)
    obtain ⟨below, hbelow⟩ := drawChildren_eq_ok others fields
    rw [ofField, drawAt, labelLines, hleft.tells.shownMarked_eq, hbelow]
    exact ⟨_, rfl⟩

theorem drawChildren_eq_ok (front : Text) :
    ∀ fs : List Field, ∃ lines, drawChildren terminal front (ofFields fs) = .ok lines
  | [] => ⟨[], rfl⟩
  | [last] => by
    rw [ofFields, ofFields, drawChildren]
    exact drawAt_eq_ok _ _ last
  | f :: next :: rest => by
    obtain ⟨own, hown⟩ := drawAt_eq_ok (front ++ "├── ") (front ++ "│   ") f
    obtain ⟨below, hbelow⟩ := drawChildren_eq_ok front (next :: rest)
    rw [ofFields, ofFields, drawChildren, hown, ← ofFields, hbelow]
    · exact ⟨_, rfl⟩
    · simp

end

/-- The markup of a label can always be read, and nothing in it has a style but the program's own. Every terminal
    shows it, as what it leaves unless it has the code of an emoji. That is the field's id and type, the word for its
    flag and its options exactly if none of the backslashes that get lost stands in them: one in front of a bracket
    that opens no tag, or one of two or more at the end of the id or the type. -/
theorem label_literal_iff (f : Field) :
    ∃ marked, Markup.read (labelOf f) = .ok marked ∧ (∀ s ∈ marked.stretches, s.style ∈ Console.ownStyles) ∧
      (∀ terminal : Terminal,
        Console.shownMarked terminal (labelOf f) = .ok (Console.shown (terminal.emojied (labelOf f))) ∧
          (terminal.Keeps (labelOf f) → terminal.emojied (labelOf f) = marked.text)) ∧
      (marked.text = labelText f ↔ IsLiteral f) := by
  obtain ⟨left, hleft, hiff⟩ := exists_passes_labelOf f
  obtain ⟨marked, hread, rfl, hstyles⟩ := hleft.exists_read
  exact ⟨marked, hread, hstyles, fun _ => ⟨hleft.tells.shownMarked_eq _, hleft.tells.emojied_eq⟩, hiff⟩

/-- Of two backslashes at the end of an id a label shows one. -/
theorem label_of_two_backslashes :
    Markup.plain (labelOf (.mk "a\\\\" "int" [] true [] [])) = .ok "a\\: int required" ∧
      labelText (.mk "a\\\\" "int" [] true [] []) = "a\\\\: int required" := by
  exact ⟨toOption_eq_some_iff.mp (by decide +kernel), by decide +kernel⟩

end Outline

end FieldForest
