/-
  FieldForest.Proofs.Markup.Fronts — words that stand in front of a message.

  A line that a run tells begins with words of its own, some of them in a colour, and goes on with
  a message that is escaped. The words are complete as marked-up text, so what a line tells is
  what they leave and then what is left of the message; a message leaves the same behind any words.

  Proved:
  - `Prints.append_text` / `OwnStyle.prints`: how such words are put together.
  - `Prints.tells` / `Prints.tells_escape`: what they tell, alone and with a message.
  - `Prints.exists_unread`: a tag behind them that closes nothing.
  - `IsFront.markedLine_escape` / `IsFront.markedLine_text`: what is shown behind words that end in a space.
-/
import FieldForest.Forest.Outline
import FieldForest.Proofs.Markup.Kept
import FieldForest.Proofs.Markup.Pieces

namespace FieldForest

namespace Console

open Markup (Leads Progress Stretch IsInside)

/-- All styles that are given so far satisfy `P`. -/
structure HasStyles (P : Text → Prop) (p : Progress) : Prop where
  opened : ∀ t ∈ p.opened, P t.style
  stretches : ∀ s ∈ p.stretches, P s.style

namespace HasStyles

variable {P Q : Text → Prop} {p : Progress}

theorem start : HasStyles P .start := ⟨List.forall_mem_nil _, List.forall_mem_nil _⟩

theorem put (h : HasStyles P p) (t : Text) : HasStyles P (p.put t) := ⟨h.opened, h.stretches⟩

theorem imp (h : HasStyles P p) (hPQ : ∀ style, P style → Q style) : HasStyles Q p :=
  ⟨fun t ht => hPQ _ (h.opened t ht), fun s hs => hPQ _ (h.stretches s hs)⟩

theorem marked (h : HasStyles P p) : ∀ s ∈ p.marked.stretches, P s.style := by
  intro s hs
  rcases List.mem_append.mp hs with hs | hs
  · obtain ⟨t, ht, rfl⟩ := List.mem_map.mp hs
    exact h.opened t ht
  · exact h.stretches s hs

end HasStyles

/-- All styles that are given so far can be looked up. -/
def Readable (p : Progress) : Prop := HasStyles (isReadable · = true) p

/-- `Tells t words`: the marked-up text `t` can be read and shown, and leaves `words`. -/
def Tells (t words : Text) : Prop :=
  ∃ p, Markup.read t = .ok p.marked ∧ Readable p ∧ p.read.reverse = words

namespace Tells

variable {t words : Text}

theorem plain_eq (h : Tells t words) : Markup.plain t = .ok words := by
  obtain ⟨p, hread, -, rfl⟩ := h
  rw [Markup.plain, hread]
  rfl

variable (terminal : Terminal)

/-- It is shown with emoji for their codes. -/
theorem shownMarked_eq (h : Tells t words) : shownMarked terminal t = .ok (shown (terminal.emojied t)) := by
  obtain ⟨p, hread, hp, -⟩ := h
  have hall : ((p.marked.stretches.filter (isLookedUp p.marked.text)).all fun s => isReadable s.style) = true := by
    rw [List.all_eq_true]
    intro s hs
    exact hp.marked s (List.mem_filter.mp hs).1
  unfold shownMarked
  rw [hread]
  show ((if _ then _ else _ : Except _ _)) = _
  rw [if_pos hall]
  rfl

theorem markedLine_eq (h : Tells t words) : markedLine terminal t = .ok (line (terminal.emojied t)) := by
  rw [markedLine, h.shownMarked_eq]
  rfl

variable {terminal}

theorem emojied_eq (h : Tells t words) (hkeeps : terminal.Keeps t) : terminal.emojied t = words := by
  obtain ⟨p, hread, -, rfl⟩ := h
  rw [hkeeps.emojied_eq, Markup.flatten_pieces hread]
  rfl

theorem hasLoneSurrogate_emojied (h : Tells t words) (hwords : words.hasLoneSurrogate = false) :
    (terminal.emojied t).hasLoneSurrogate = false := by
  obtain ⟨p, hread, -, rfl⟩ := h
  exact terminal.hasLoneSurrogate_emojied hread hwords

/-- Without the code of an emoji in it, it is shown as what it leaves. -/
theorem shownMarked_of_keeps (h : Tells t words) (hkeeps : terminal.Keeps t) :
    shownMarked terminal t = .ok (shown words) := by
  rw [h.shownMarked_eq, h.emojied_eq hkeeps]

end Tells

/-- `Prints front left`: the marked-up text `front` is read on its own, leaves the text `left`, and
    has no style that is impossible to look up. -/
def Prints (front left : Text) : Prop :=
  ∃ p, Leads front p ∧ p.read.reverse = left ∧ p.opened = [] ∧ ∀ s ∈ p.stretches, isReadable s.style = true

namespace Prints

variable {front left : Text}

theorem nil : Prints [] [] := ⟨.start, .nil, rfl, rfl, List.forall_mem_nil _⟩

theorem append (h : Prints front left) {t : Text} {c : CodePoint} (ht : .char '[' ∉ t) (hc : c ≠ .char '\\')
    (ho : c ≠ .char '[') : Prints (front ++ (t ++ [c])) (left ++ (t ++ [c])) := by
  obtain ⟨p, hleads, rfl, hopened, hstyles⟩ := h
  exact ⟨p.put (t ++ [c]), hleads.plain ht hc ho, p.read_put _, hopened, hstyles⟩

theorem append_text (h : Prints front left) {t : Text} {c : CodePoint} (ht : .char '[' ∉ t) (hlast : t.getLast? = some c)
    (hc : c ≠ .char '\\') : Prints (front ++ t) (left ++ t) := by
  obtain ⟨u, rfl⟩ := List.getLast?_eq_some_iff.mp hlast
  rw [List.mem_append, not_or, List.mem_singleton] at ht
  exact h.append ht.1 hc fun ho => ht.2 ho.symm

/-- How far reading such words gets. -/
theorem exists_reads (h : Prints front left) :
    ∃ p, Markup.Reads front .start p ∧ Readable p ∧ p.read.reverse = left := by
  obtain ⟨p, hleads, hleft, hopened, hstyles⟩ := h
  refine ⟨p, hleads.reads, ⟨?_, hstyles⟩, hleft⟩
  rw [hopened]
  exact List.forall_mem_nil _

theorem tells (h : Prints front left) : Tells front left := by
  obtain ⟨p, hreads, hp, hleft⟩ := h.exists_reads
  exact ⟨p, hreads.read_eq, hp, hleft⟩

/-- Behind such words an escaped text is told as it is read on its own. -/
theorem tells_escape (h : Prints front left) (s : Text) : Tells (front ++ Markup.escape s) (left ++ Markup.leftOf s) := by
  obtain ⟨p, hreads, hp, rfl⟩ := h.exists_reads
  exact ⟨_, hreads.read_escape s, hp.put _, p.read_put _⟩

/-- Behind such words nothing is open that a tag could close, so one that has to does not get read. -/
theorem exists_unread (h : Prints front left) {inside : Text} (hinside : IsInside inside)
    (htag : ∀ p : Progress, p.opened = [] → ∃ e, p.tag inside = .error e) (terminal : Terminal) (rest : Text) :
    ∃ e, shownMarked terminal (front ++ (Markup.tagText inside ++ rest)) = .error e := by
  obtain ⟨p, hleads, -, hopened, -⟩ := h
  obtain ⟨e, he⟩ := htag p hopened
  have hfold : (Markup.tokens (Markup.tagText inside ++ rest)).foldlM Progress.token p = .error e := by
    rw [Markup.tokens_tag hinside, List.foldlM_cons]
    show (p.tag inside >>= _) = _
    rw [he]
    rfl
  refine ⟨e, ?_⟩
  rw [shownMarked, hleads.reads.read_eq_foldlM, hfold]
  rfl

end Prints

/-- Words in front of a message: they end in a blank, and the terminal shows them as they are. -/
structure IsFront (terminal : Terminal) (front left : Text) : Prop where
  prints : Prints front left
  endsInBlank : Markup.EndsInBlank front
  emojied_eq : terminal.emojied front = left

namespace IsFront

variable {terminal : Terminal} {front left : Text}

/-- Words go on with others without a bracket, up to a space. -/
theorem append_text (h : IsFront terminal front left) {t : Text} (ht : .char '[' ∉ t) (hkeeps : terminal.emoji t = t) :
    IsFront terminal (front ++ (t ++ " ")) (left ++ (t ++ " ")) where
  prints := h.prints.append ht (by decide) (by decide)
  endsInBlank := by
    obtain ⟨p, hreads, -⟩ := h.prints.exists_reads
    exact hreads.endsInBlank ht (.inl rfl)
  emojied_eq := by
    have hspace : .char '[' ∉ t ++ (" " : Text) := by
      rw [List.mem_append, not_or]
      exact ⟨ht, by decide⟩
    have hemoji : terminal.emoji (t ++ .char ' ' :: []) = t ++ .char ' ' :: [] := by
      rw [terminal.emoji_blank _ _ ' ' (.inl rfl), hkeeps, terminal.emoji_nil]
    rw [terminal.emojied_append h.endsInBlank, h.emojied_eq, terminal.emojied_of_noBracket hspace]
    exact congrArg (left ++ ·) hemoji

/-- Behind such words an escaped message is told as it is told on its own. -/
theorem markedLine_escape (h : IsFront terminal front left) (s : Text) :
    Console.markedLine terminal (front ++ Markup.escape s) = .ok (line (left ++ terminal.emojied (Markup.escape s))) := by
  rw [(h.prints.tells_escape s).markedLine_eq, terminal.emojied_append h.endsInBlank, h.emojied_eq]

/-- The same holds of words without a bracket. -/
theorem markedLine_text (h : IsFront terminal front left) {t : Text} {c : CodePoint} (ht : .char '[' ∉ t)
    (hlast : t.getLast? = some c) (hc : c ≠ .char '\\') (hkeeps : terminal.emoji t = t) :
    Console.markedLine terminal (front ++ t) = .ok (line (left ++ t)) := by
  rw [(h.prints.append_text ht hlast hc).tells.markedLine_eq, terminal.emojied_append h.endsInBlank, h.emojied_eq,
    terminal.emojied_of_noBracket ht, hkeeps]

end IsFront

/-! ## The program's own styles -/

/-- A style that the program itself puts around texts: one word, which is its canonical form. -/
structure OwnStyle (style : Text) : Prop where
  word : ∃ c rest, style = .char c :: rest ∧ c.isLower = true
  trimmed : Text.trim style = style
  canonical : Markup.Style.canonical style = .ok style
  readable : isReadable style = true
  opening : Markup.tagParts style = (style, none)
  closing : Markup.tagParts ("/" ++ style) = (.char '/' :: style, none)
  opens : IsInside style
  closes : IsInside ("/" ++ style)

/-- The styles that are in use. -/
def ownStyles : List Text := ["red", "green", "yellow", "cyan", "magenta", "dim", "bold"]

theorem ownStyle_of_mem {style : Text} (h : style ∈ ownStyles) : OwnStyle style := by
  simp only [ownStyles, List.mem_cons, List.not_mem_nil, or_false] at h
  rcases h with rfl | rfl | rfl | rfl | rfl | rfl | rfl
  all_goals
    refine ⟨⟨_, _, rfl, by decide⟩, rfl, rfl, rfl, rfl, rfl, ?_, ?_⟩
    · exact ⟨_, _, rfl, rfl, by decide, by decide⟩
    · exact ⟨_, _, rfl, rfl, by decide, by decide⟩

namespace OwnStyle

variable {style : Text} (h : OwnStyle style) (p : Progress)

include h

theorem tag_eq : p.tag style = .ok { p with opened := ⟨style, none, p.read.length⟩ :: p.opened } := by
  obtain ⟨c, rest, hword, hlower⟩ := h.word
  unfold Progress.tag
  split
  · rename_i hslash
    rw [h.opening, hword] at hslash
    cases hslash
    cases hlower
  · rename_i hname
    rw [h.opening] at hname
    cases hname
    rw [h.canonical]

theorem close_eq (start : Nat) (opened : List Markup.OpenTag) :
    Markup.close style (⟨style, none, start⟩ :: opened) = .ok (⟨style, none, start⟩, opened) := by
  obtain ⟨c, rest, hword, -⟩ := h.word
  have hempty : style.isEmpty = false := by rw [hword]; rfl
  unfold Markup.close
  rw [h.trimmed, hempty, h.canonical]
  simp [Markup.closeNamed, Markup.OpenTag.isSound]

/-- The tag that closes a style closes the last one that opened it. -/
theorem tag_close_eq {start : Nat} {opened : List Markup.OpenTag} (hopened : p.opened = ⟨style, none, start⟩ :: opened) :
    p.tag ("/" ++ style) =
      .ok { p with opened, stretches := p.stretch ⟨style, none, start⟩ :: p.stretches } := by
  obtain ⟨c, rest, hword, hlower⟩ := h.word
  have haction : Markup.OpenTag.isAction ⟨style, none, start⟩ = false := by
    rw [Markup.OpenTag.isAction, hword]
    by_cases hc : c = '@'
    · subst hc
      cases hlower
    · simp [hc]
  unfold Progress.tag
  rw [h.closing]
  show (Markup.close style p.opened).map _ = _
  rw [hopened, h.close_eq]
  simp [Except.map, haction]

/-- A word in a style. -/
theorem prints {t : Text} {c : CodePoint} (ht : .char '[' ∉ t) (hc : c ≠ .char '\\') (ho : c ≠ .char '[') :
    Prints (Outline.styled style (t ++ [c])) (t ++ [c]) := by
  let word := t ++ [c]
  let opened : Progress := ⟨[], [], [⟨style, none, 0⟩]⟩
  let closed : Progress := ⟨word.reverse ++ [], [(opened.put word).stretch ⟨style, none, 0⟩], []⟩
  have hclose : (opened.put word).tag ("/" ++ style) = .ok closed := h.tag_close_eq (opened.put word) rfl
  refine ⟨closed, ?_, ?_, rfl, List.forall_mem_singleton.mpr h.readable⟩
  · have hfront : [] ++ Markup.tagText style ++ word ++ Markup.tagText ("/" ++ style) = Outline.styled style word := by
      simp [Markup.tagText, Outline.styled, Text.ofString, Text.ofChars]
    rw [← hfront]
    exact ((Leads.nil.tag h.opens (h.tag_eq .start)).plain ht hc ho).tag h.closes hclose
  · show (word.reverse ++ []).reverse = word
    rw [List.append_nil, List.reverse_reverse]

/-- A word in a style and a space are words in front of a message. -/
theorem isFront (terminal : Terminal) {t : Text} {c : CodePoint} (ht : .char '[' ∉ t) (hc : c ≠ .char '\\')
    (ho : c ≠ .char '[') (hkeeps : terminal.Keeps (Outline.styled style (t ++ [c]) ++ " ")) :
    IsFront terminal (Outline.styled style (t ++ [c]) ++ " ") (t ++ [c] ++ " ") := by
  have hword := h.prints ht hc ho
  have hfront : Prints (Outline.styled style (t ++ [c]) ++ " ") (t ++ [c] ++ " ") :=
    hword.append List.not_mem_nil (by decide) (by decide)
  obtain ⟨p, hreads, -⟩ := hword.exists_reads
  exact ⟨hfront, hreads.endsInBlank List.not_mem_nil (.inl rfl), hfront.tells.emojied_eq hkeeps⟩

end OwnStyle

end Console

end FieldForest
