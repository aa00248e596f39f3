/-
  FieldForest.Proofs.Markup.Kept — what is left of escaped text, character for character.

  Tags in an escaped text are left as they are, with all backslashes in front of them. Two kinds
  of backslashes get lost: one in front of each bracket that opens no tag, since it is not
  doubled; and those at the end, where two or more stand and the next thing is a tag, since only a
  single one is doubled there. On its own an escaped text has a single backslash at its end twice.

  Proved:
  - `keepsBackslashes_iff` / `left_or_loses`: in terms of tokens, and what gets lost otherwise.
  - `escape_append_backslashes` / `tokens_escape_tagged`: how an escaped text ends, and what becomes of
    its end in front of a tag.
  - `leftOf_eq_iff`: on its own an escaped text is left as it is.
  - `shows_tagged`: in front of a tag it is, or else something else is left, whatever follows.
-/
import FieldForest.Proofs.Markup.Unmarked

namespace FieldForest.Markup

/-! ## Backslashes in front of brackets -/

/-- No backslash in the text stands right in front of a bracket that opens no tag. -/
def KeepsBackslashes (s : Text) : Prop :=
  ∀ rest, .char '\\' :: .char '[' :: rest <:+ s → (tagBehind? rest).isSome

theorem keepsBackslashes_nil : KeepsBackslashes [] := by
  intro rest h
  simp at h

theorem keepsBackslashes_cons_iff {c : CodePoint} {s : Text} :
    KeepsBackslashes (c :: s) ↔
      (c = .char '\\' → ∀ rest, s = .char '[' :: rest → (tagBehind? rest).isSome) ∧ KeepsBackslashes s := by
  constructor
  · intro h
    refine ⟨?_, fun rest hrest => h rest (hrest.trans (List.suffix_cons c s))⟩
    rintro rfl rest rfl
    exact h rest List.suffix_rfl
  · rintro ⟨hc, hs⟩ rest h
    rcases List.suffix_cons_iff.mp h with he | h
    · obtain ⟨rfl, rfl⟩ := List.cons.inj he
      exact hc rfl rest rfl
    · exact hs rest h

theorem keepsBackslashes_behind_iff {n : Nat} {s : Text} :
    KeepsBackslashes (List.replicate n (.char '\\') ++ s) ↔
      (0 < n → ∀ rest, s = .char '[' :: rest → (tagBehind? rest).isSome) ∧ KeepsBackslashes s := by
  induction n with
  | zero => simp
  | succ n ih =>
    rw [List.replicate_succ, List.cons_append, keepsBackslashes_cons_iff, ih]
    cases n with
    | zero => simp
    | succ n => simp [List.replicate_succ]

/-- What stands in front of a bracket that closes is no matter for what stands behind it. -/
theorem keepsBackslashes_closed_iff {inside s : Text} (h : .char '[' ∉ inside) :
    KeepsBackslashes (inside ++ .char ']' :: s) ↔ KeepsBackslashes s := by
  induction inside with
  | nil => simp [keepsBackslashes_cons_iff]
  | cons c inside ih =>
    rw [List.mem_cons, not_or] at h
    rw [List.cons_append, keepsBackslashes_cons_iff, ih h.2, and_iff_right]
    intro _ rest hrest
    cases inside with
    | nil => simp at hrest
    | cons d inside =>
      obtain ⟨rfl, -⟩ := List.cons.inj hrest
      simp at h

theorem bracket_not_mem_backslashes (n k : Nat) : Token.bracket k ∉ backslashes n := by
  intro h
  cases List.eq_of_mem_replicate h

theorem keepsBackslashes_tokensBehind_iff {n : Nat} {s : Text} :
    KeepsBackslashes (List.replicate n (.char '\\') ++ s) ↔ ∀ k, .bracket (k + 1) ∉ tokensBehind n s := by
  fun_induction tokensBehind n s with
  | case1 n =>
    rw [keepsBackslashes_behind_iff]
    simp [keepsBackslashes_nil, bracket_not_mem_backslashes]
  | case2 n rest ih => rw [replicate_append_backslash, ih]
  | case3 n rest inside after h _ ih =>
    obtain ⟨rfl, c, more, rfl, hbegins, hopen, -⟩ := tagBehind?_eq_some_iff.mp h
    have hinside : .char '[' ∉ .char c :: more := by
      intro hmem
      rcases List.mem_cons.mp hmem with he | hmem
      · cases he
        cases hbegins
      · exact hopen hmem
    have hsome : (tagBehind? (.char c :: (more ++ .char ']' :: after))).isSome := by
      rw [← List.cons_append, h]
      rfl
    rw [keepsBackslashes_behind_iff, keepsBackslashes_cons_iff, keepsBackslashes_closed_iff hinside]
    simp [hsome, ← ih]
  | case4 n rest h ih =>
    rw [keepsBackslashes_behind_iff, keepsBackslashes_cons_iff]
    cases n with
    | zero => simp [← ih]
    | succ n =>
      constructor
      · intro hkeeps
        have hsome := hkeeps.1 (Nat.succ_pos n) rest rfl
        rw [h] at hsome
        cases hsome
      · intro hnone
        exact absurd List.mem_cons_self (hnone n)
  | case5 n c rest hc ho ih =>
    rw [keepsBackslashes_behind_iff, keepsBackslashes_cons_iff, and_iff_right, and_iff_right]
    · simp [bracket_not_mem_backslashes, ← ih]
    · intro he
      exact absurd he hc
    · intro _ rest he
      exact absurd (List.cons.inj he).1 ho

theorem keepsBackslashes_iff {s : Text} : KeepsBackslashes s ↔ ∀ k, .bracket (k + 1) ∉ tokens s :=
  keepsBackslashes_tokensBehind_iff (n := 0)

/-! ## What is left of the tokens of an escaped text -/

/-- What is left of the tokens of an escaped text. -/
def leftOfTokens (ts : List Token) : Text := (ts.map Token.literal).flatMap Token.left

/-- Of a token in an escaped text its written form is left, unless it is a bracket with a backslash in front. -/
theorem Token.left_literal_or (t : Token) : t.literal.left = t.written ∨ ∃ k, t = .bracket (k + 1) := by
  cases t with
  | plain c => exact .inl rfl
  | bracket n =>
    cases n with
    | zero => exact .inl rfl
    | succ k => exact .inr ⟨k, rfl⟩
  | tag n inside =>
    have hhalf : (2 * n + 1) / 2 = n := by omega
    left
    simp only [literal, left, written, hhalf]

theorem leftOfTokens_eq {ts : List Token} (h : ∀ k, .bracket (k + 1) ∉ ts) :
    leftOfTokens ts = ts.flatMap Token.written := by
  induction ts with
  | nil => rfl
  | cons t ts ih =>
    have hts := ih fun k hk => h k (List.mem_cons_of_mem _ hk)
    rcases t.left_literal_or with ht | ⟨k, rfl⟩
    · rw [leftOfTokens, List.map_cons, List.flatMap_cons, ← leftOfTokens, ht, hts, List.flatMap_cons]
    · exact absurd List.mem_cons_self (h k)

theorem loses_bracket (n : Nat) (x y : Text) :
    Loses ((Token.bracket (n + 1)).literal.left ++ x) ((Token.bracket (n + 1)).written ++ y) := by
  show Loses (List.replicate n _ ++ [_] ++ x) (List.replicate (n + 1) _ ++ [_] ++ y)
  rw [List.append_assoc, List.append_assoc]
  exact Loses.of_lt (Nat.lt_succ_self n) (by decide) _ _

theorem loses_leftOfTokens {ts : List Token} {k : Nat} (h : .bracket (k + 1) ∈ ts) (z : Text) :
    Loses (leftOfTokens ts) (ts.flatMap Token.written ++ z) := by
  induction ts with
  | nil => cases h
  | cons t ts ih =>
    rw [leftOfTokens, List.map_cons, List.flatMap_cons, ← leftOfTokens, List.flatMap_cons, List.append_assoc]
    rcases List.mem_cons.mp h with rfl | h
    · exact loses_bracket k _ _
    · rcases t.left_literal_or with ht | ⟨n, rfl⟩
      · rw [ht]
        exact (ih h).behind _
      · exact loses_bracket n _ _

/-- Nothing but backslashes in front of brackets gets lost of the tokens of an escaped text. -/
theorem left_or_loses (s : Text) :
    (KeepsBackslashes s ∧ leftOfTokens (tokens s) = s) ∨
      (¬ KeepsBackslashes s ∧ ∀ z, Loses (leftOfTokens (tokens s)) (s ++ z)) := by
  have hwritten : (tokens s).flatMap Token.written = s := written_tokensBehind 0 s
  by_cases h : KeepsBackslashes s
  · refine .inl ⟨h, ?_⟩
    rw [leftOfTokens_eq (keepsBackslashes_iff.mp h), hwritten]
  · refine .inr ⟨h, fun z => ?_⟩
    rw [keepsBackslashes_iff, Classical.not_forall] at h
    obtain ⟨k, hk⟩ := h
    have hloses := loses_leftOfTokens (Classical.not_not.mp hk) z
    rwa [hwritten] at hloses

/-! ## The end of an escaped text -/

theorem getLast?_escapedBehind {n : Nat} {s : Text} (hn : s = [] → n = 0) (h : s.getLast? ≠ some (.char '\\')) :
    (escapedBehind n s).getLast? ≠ some (.char '\\') := by
  fun_induction tokensBehind n s with
  | case1 n => simp [hn, escapedBehind_nil]
  | case2 n rest ih =>
    rw [escapedBehind_backslash]
    refine ih (fun hrest => ?_) (getLast?_ne_of_append (s := [.char '\\']) h)
    subst hrest
    exact absurd rfl h
  | case3 n rest inside after htag _ ih =>
    obtain ⟨rfl, -⟩ := tagBehind?_eq_some_iff.mp htag
    have hafter : after.getLast? ≠ some (.char '\\') :=
      getLast?_ne_of_append (s := .char '[' :: inside ++ [.char ']']) (by simpa using h)
    rw [escapedBehind_tag n htag, ← List.append_assoc]
    refine getLast?_append_ne ?_ (ih (fun _ => rfl) hafter)
    rw [tagText, ← List.append_assoc, List.getLast?_concat]
    simp
  | case4 n rest htag ih =>
    rw [escapedBehind_bracket n htag, ← List.singleton_append, ← List.append_assoc]
    refine getLast?_append_ne ?_ (ih (fun _ => rfl) (getLast?_ne_of_append (s := [.char '[']) h))
    rw [List.getLast?_concat]
    simp
  | case5 n c rest hc ho ih =>
    rw [escapedBehind_plain n rest hc ho, ← List.singleton_append, ← List.append_assoc]
    refine getLast?_append_ne ?_ (ih (fun _ => rfl) (getLast?_ne_of_append (s := [c]) h))
    rw [List.getLast?_concat]
    simpa using hc

theorem endsInBackslash_append {s : Text} (h : s.getLast? ≠ some (.char '\\')) (k : Nat) :
    endsInBackslash (s ++ List.replicate k (.char '\\')) = decide (k = 1) := by
  have hhead : s.reverse.head? ≠ some (.char '\\') := by rwa [List.head?_reverse]
  unfold endsInBackslash
  rw [List.reverse_append, List.reverse_replicate]
  cases hreverse : s.reverse with
  | nil =>
    rcases k with _ | _ | k
    · rfl
    · rfl
    · simp [List.replicate_succ]
  | cons c rest =>
    have hc : c ≠ .char '\\' := by simpa [hreverse] using hhead
    rcases k with _ | _ | k
    · simp [hc]
    · simp [hc]
    · simp [List.replicate_succ]

theorem Token.brackets_escaped (t : Token) : brackets t.escaped = brackets t.written := by
  cases t <;> simp [Token.escaped, Token.written]

theorem brackets_flatMap_escaped (ts : List Token) :
    brackets (ts.flatMap Token.escaped) = brackets (ts.flatMap Token.written) := by
  induction ts with
  | nil => rfl
  | cons t ts ih => simp [ih, t.brackets_escaped]

/-- Escaping puts no brackets into a text. -/
theorem brackets_escape (s : Text) : brackets (escape s) = brackets s := by
  have hend : brackets (endOf s) = 0 := by
    rcases isEnd_endOf s with hend | hend <;> rw [hend] <;> rfl
  have hwritten : (tokensBehind 0 s).flatMap Token.written = s := written_tokensBehind 0 s
  rw [escape_eq, brackets_append, hend, escapedBehind, brackets_flatMap_escaped, hwritten, Nat.add_zero]

/-- How many backslashes an escaped text ends with, if the text ends with `k`. -/
def escapedEnd (k : Nat) : Nat := if k = 1 then 2 else k

theorem tokens_escapedBehind_alone (s : Text) : tokens (escapedBehind 0 s) = (tokens s).map Token.literal := by
  have h := tokens_escapedBehind (.inl rfl) 0 s
  rw [List.append_nil, tokens, tokens, tokensBehind_nil] at h
  rw [tokens, h]
  exact List.append_nil _

section

variable {body : Text} (hbody : body.getLast? ≠ some (.char '\\')) (k : Nat)

include hbody

theorem tokens_append_backslashes :
    tokens (body ++ List.replicate k (.char '\\')) = tokens body ++ backslashes k := by
  have hclosing : untilClosing (List.replicate k (.char '\\')) = none := by
    have h := takeWhile_backslashes k []
    rw [List.append_nil] at h
    rw [untilClosing_eq_none_iff, h]
    simp
  have hbackslashes := tokensBehind_replicate 0 k []
  rw [List.append_nil, tokensBehind_nil, Nat.zero_add] at hbackslashes
  rw [tokens, tokensBehind_append hclosing hbody fun _ => rfl, tokens, tokens, hbackslashes]

theorem escape_append_backslashes :
    escape (body ++ List.replicate k (.char '\\')) =
      escapedBehind 0 body ++ List.replicate (escapedEnd k) (.char '\\') := by
  have hescaped : escapedBehind 0 (body ++ List.replicate k (.char '\\')) =
      escapedBehind 0 body ++ List.replicate k (.char '\\') := by
    rw [escapedBehind, ← tokens, tokens_append_backslashes hbody, List.flatMap_append, escaped_backslashes]
    rfl
  have hlast := getLast?_escapedBehind (n := 0) (fun _ => rfl) hbody
  rw [escape_eq, endOf, hescaped, endsInBackslash_append hlast, List.append_assoc]
  by_cases hk : k = 1
  · subst hk
    rfl
  · simp [escapedEnd, hk]

theorem keepsBackslashes_append_backslashes :
    KeepsBackslashes (body ++ List.replicate k (.char '\\')) ↔ KeepsBackslashes body := by
  rw [keepsBackslashes_iff, keepsBackslashes_iff, tokens_append_backslashes hbody]
  simp [bracket_not_mem_backslashes]

/-- In front of a tag the backslashes at the end of an escaped text go with the tag. -/
theorem tokens_escape_tagged {inside : Text} (hinside : IsInside inside) (rest : Text) :
    tokens (escape (body ++ List.replicate k (.char '\\')) ++ (tagText inside ++ rest)) =
      (tokens body).map Token.literal ++ .tag (escapedEnd k) inside :: tokens rest := by
  have hlast := getLast?_escapedBehind (n := 0) (fun _ => rfl) hbody
  rw [escape_append_backslashes hbody, List.append_assoc, tokens_tagged hlast hinside, tokens_escapedBehind_alone]

theorem leftOf_append_backslashes :
    leftOf (body ++ List.replicate k (.char '\\')) =
      leftOfTokens (tokens body) ++ List.replicate (escapedEnd k) (.char '\\') := by
  have hlast := getLast?_escapedBehind (n := 0) (fun _ => rfl) hbody
  rw [leftOf, escape_append_backslashes hbody, tokens_append_backslashes hlast, tokens_escapedBehind_alone,
    List.flatMap_append, left_backslashes, leftOfTokens]

end

/-- A text all of which is left on its own, if it is escaped: no backslash in it stands in front of a bracket
    that opens no tag, and it does not end in a single backslash. -/
structure IsKeptAlone (s : Text) : Prop where
  keepsBackslashes : KeepsBackslashes s
  noBackslash : endsInBackslash s = false

theorem leftOf_eq_iff {s : Text} : leftOf s = s ↔ IsKeptAlone s := by
  have hiff : IsKeptAlone s ↔ KeepsBackslashes s ∧ endsInBackslash s = false := ⟨fun h => ⟨h.1, h.2⟩, fun h => ⟨h.1, h.2⟩⟩
  rw [hiff]
  obtain ⟨body, k, rfl, hbody⟩ := exists_backslashes_behind s
  rw [leftOf_append_backslashes hbody, endsInBackslash_append hbody, keepsBackslashes_append_backslashes hbody]
  rcases left_or_loses body with ⟨hkeeps, hleft⟩ | ⟨hkeeps, hloses⟩
  · rw [hleft, List.append_cancel_left_eq]
    by_cases hk : k = 1
    · subst hk
      simp [escapedEnd]
    · simp [escapedEnd, hk, hkeeps]
  · constructor
    · intro h
      have hne := ((hloses (List.replicate k (.char '\\'))).append (List.replicate (escapedEnd k) (.char '\\')) []).ne
      rw [List.append_nil] at hne
      exact absurd h hne
    · intro h
      exact absurd h.1 hkeeps

/-- A text without backslashes is left as it is. -/
theorem leftOf_of_noBackslash {s : Text} (h : .char '\\' ∉ s) : leftOf s = s := by
  rw [leftOf_eq_iff]
  constructor
  · intro rest hrest
    exact absurd (hrest.subset List.mem_cons_self) h
  · have hlast : s.getLast? ≠ some (.char '\\') := fun hlast => h (List.mem_of_getLast? hlast)
    have hends := endsInBackslash_append hlast 0
    rwa [List.replicate_zero, List.append_nil] at hends

/-! ## Escaped text in front of a tag -/

/-- A text all of which is left in front of a tag, if it is escaped: no backslash in it stands in front of a
    bracket that opens no tag, and no two backslashes stand at its end. -/
structure IsKept (s : Text) : Prop where
  keepsBackslashes : KeepsBackslashes s
  noBackslashes : ¬ [.char '\\', .char '\\'] <:+ s

/-- `Shows left s`: what is `left` of `s` is all of it, if it is kept, and is never mistaken for it otherwise,
    whatever follows. -/
def Shows (left s : Text) : Prop :=
  (IsKept s ∧ left = s) ∨
    (¬ IsKept s ∧ ∀ (c : CodePoint) (y z : Text), c ≠ .char '\\' → Loses (left ++ c :: y) (s ++ z))

theorem two_backslashes_iff {body : Text} (hbody : body.getLast? ≠ some (.char '\\')) (k : Nat) :
    [.char '\\', .char '\\'] <:+ body ++ List.replicate k (CodePoint.char '\\') ↔ 2 ≤ k := by
  have hhead (t : Text) : ¬ .char '\\' :: t <+: body.reverse := by
    rintro ⟨rest, h⟩
    rw [← List.head?_reverse, ← h] at hbody
    exact hbody rfl
  rw [← List.reverse_prefix, List.reverse_append, List.reverse_replicate]
  rcases k with _ | _ | k
  · simpa using hhead [.char '\\']
  · simpa [List.cons_prefix_cons] using hhead []
  · simp [List.replicate_succ, List.cons_prefix_cons]

theorem isKept_append_backslashes {body : Text} (hbody : body.getLast? ≠ some (.char '\\')) (k : Nat) :
    IsKept (body ++ List.replicate k (.char '\\')) ↔ KeepsBackslashes body ∧ k < 2 := by
  rw [← keepsBackslashes_append_backslashes hbody k, ← Nat.not_le, ← two_backslashes_iff hbody]
  exact ⟨fun h => ⟨h.1, h.2⟩, fun h => ⟨h.1, h.2⟩⟩

/-- What a tag and an escaped text in front of it leave together shows whether the text is kept. -/
theorem shows_tagged {body : Text} (hbody : body.getLast? ≠ some (.char '\\')) (k : Nat) (inside : Text) :
    Shows (leftOfTokens (tokens body) ++ (Token.tag (escapedEnd k) inside).leaves)
      (body ++ List.replicate k (.char '\\')) := by
  rcases left_or_loses body with ⟨hkeeps, hleft⟩ | ⟨hkeeps, hloses⟩
  · rw [hleft, Shows, isKept_append_backslashes hbody]
    by_cases hk : k < 2
    · left
      refine ⟨⟨hkeeps, hk⟩, ?_⟩
      rcases k with _ | _ | k
      · rfl
      · rfl
      · omega
    · right
      refine ⟨fun h => hk h.2, fun c y z hc => ?_⟩
      have hend : escapedEnd k = k := if_neg (by omega)
      rw [hend, List.append_assoc, List.append_assoc]
      refine Loses.behind ?_ body
      by_cases hodd : k % 2 = 1
      · rw [Token.leaves_tag_odd hodd, List.append_assoc]
        exact Loses.of_lt (by omega) (by decide) _ _
      · rw [Token.leaves_tag_even hodd]
        exact Loses.of_lt (by omega) hc _ _
  · right
    rw [isKept_append_backslashes hbody]
    refine ⟨fun h => hkeeps h.1, fun c y z _ => ?_⟩
    have h := (hloses (List.replicate k (.char '\\'))).append ((Token.tag (escapedEnd k) inside).leaves ++ c :: y) z
    rwa [← List.append_assoc] at h

/-- In front of anything but a backslash one sees what is left of the text. -/
theorem Shows.append_eq_iff {left s : Text} (h : Shows left s) {c : CodePoint} (hc : c ≠ .char '\\') {y z : Text} :
    left ++ c :: y = s ++ c :: z ↔ IsKept s ∧ y = z := by
  rcases h with ⟨hkept, rfl⟩ | ⟨hkept, hloses⟩
  · simp [hkept]
  · constructor
    · intro he
      exact absurd he (hloses c y (c :: z) hc).ne
    · intro he
      exact absurd he.1 hkept

end FieldForest.Markup
