/-
  FieldForest.Proofs.Markup.Unmarked — texts in which nothing is taken for markup.

  A text that is put into marked-up text as it is stands there for itself only if no tag opens
  in it and no backslash stands in front of a bracket. Whether a tag opens can depend on what
  follows, since it is closed by the next closing bracket, wherever that is.

  What is left of a text tells that apart. Every tag that counts takes its opening bracket with
  it, so if all opening brackets are left, no tag counts; and if none does, the first backslash
  that gets lost leaves a bracket in its place.

  Proved:
  - `written_tokensBehind` / `Progress.read_of_foldlM`: what tokens are written as, and what they leave.
  - `isLiteral_of_brackets`: brackets get lost with the tags that count.
  - `tokensBehind_append`: the tokens of a text with another behind it that closes none of its tags.
  - `Unmarked.left_tokens` / `unmarked_or_loses`: what an unmarked text leaves, and what gets lost of any other.
  - `Reads.unmarked_of_plain` / `Reads.read_of_unmarked`: in front of escaped text a text is left as it is
    exactly if it is unmarked.
  - `Reads.unmarked_of_plain_tagged` / `Reads.read_of_unmarked_tagged`: and so it is in front of a tag.
-/
import FieldForest.Proofs.Markup.Escape

namespace FieldForest.Markup

/-! ## What tokens are written as, and what they leave -/

/-- A token as it is written. -/
def Token.written : Token → Text
  | .plain c => [c]
  | .bracket n => List.replicate n (.char '\\') ++ [.char '[']
  | .tag n inside => List.replicate n (.char '\\') ++ tagText inside

/-- The text that a token leaves; of a tag that counts that is backslashes only. -/
def Token.leaves : Token → Text
  | .plain c => [c]
  | .bracket n => List.replicate (n - 1) (.char '\\') ++ [.char '[']
  | .tag n inside => List.replicate (n / 2) (.char '\\') ++ if n % 2 = 1 then tagText inside else []

@[simp] theorem Token.leaves_plain (c : CodePoint) : (Token.plain c).leaves = [c] := rfl

@[simp] theorem Token.leaves_bracket (n : Nat) :
    (Token.bracket n).leaves = List.replicate (n - 1) (.char '\\') ++ [.char '['] := rfl

theorem Token.leaves_tag_odd {n : Nat} (h : n % 2 = 1) (inside : Text) :
    (Token.tag n inside).leaves = List.replicate (n / 2) (.char '\\') ++ tagText inside :=
  congrArg (List.replicate (n / 2) (CodePoint.char '\\') ++ ·) (if_pos h)

theorem Token.leaves_tag_even {n : Nat} (h : ¬ n % 2 = 1) (inside : Text) :
    (Token.tag n inside).leaves = List.replicate (n / 2) (.char '\\') :=
  (congrArg (List.replicate (n / 2) (CodePoint.char '\\') ++ ·) (if_neg h)).trans (List.append_nil _)

theorem Token.leaves_of_isLiteral {t : Token} (h : t.IsLiteral) : t.leaves = t.left := by
  cases t with
  | tag n inside => exact Token.leaves_tag_odd h inside
  | _ => rfl

theorem flatMap_leaves_of_isLiteral {ts : List Token} (h : ∀ t ∈ ts, t.IsLiteral) :
    ts.flatMap Token.leaves = ts.flatMap Token.left := by
  induction ts with
  | nil => rfl
  | cons t ts ih =>
    obtain ⟨ht, hts⟩ := List.forall_mem_cons.mp h
    rw [List.flatMap_cons, List.flatMap_cons, Token.leaves_of_isLiteral ht, ih hts]

theorem flatMap_plain (s : Text) : (s.map Token.plain).flatMap Token.written = s := by
  induction s with
  | nil => rfl
  | cons c s ih =>
    rw [List.map_cons, List.flatMap_cons, ih]
    rfl

theorem backslashes_eq_map (n : Nat) : backslashes n = (List.replicate n (.char '\\')).map .plain := by
  rw [backslashes, List.map_replicate]

/-- The tokens of a text write it. -/
theorem written_tokensBehind (n : Nat) (s : Text) :
    (tokensBehind n s).flatMap Token.written = List.replicate n (.char '\\') ++ s := by
  fun_induction tokensBehind n s with
  | case1 n =>
    rw [backslashes_eq_map, flatMap_plain, List.append_nil]
  | case2 n rest ih =>
    rw [ih, List.replicate_succ', List.append_assoc]
    rfl
  | case3 n rest inside after h _ ih =>
    obtain ⟨rfl, -⟩ := tagBehind?_eq_some_iff.mp h
    rw [List.flatMap_cons, ih]
    simp [Token.written, tagText]
  | case4 n rest h ih =>
    rw [List.flatMap_cons, ih]
    simp [Token.written]
  | case5 n c rest hc ho ih =>
    rw [List.flatMap_append, List.flatMap_cons, ih, backslashes_eq_map, flatMap_plain]
    rfl

theorem Progress.read_of_tag {p q : Progress} {inside : Text} (h : p.tag inside = .ok q) : q.read = p.read := by
  unfold Progress.tag at h
  split at h
  · rename_i name parameters _
    cases hclose : close name p.opened with
    | error e =>
      rw [hclose] at h
      cases h
    | ok found =>
      rw [hclose] at h
      cases h
      rfl
  · split at h <;> cases h
    rfl

theorem Progress.read_of_token {p q : Progress} {t : Token} (h : p.token t = .ok q) :
    q.read.reverse = p.read.reverse ++ t.leaves := by
  cases t with
  | plain c =>
    cases h
    exact p.read_put _
  | bracket n =>
    cases h
    exact p.read_put _
  | tag n inside =>
    unfold Progress.token at h
    dsimp only at h
    split at h
    · rename_i hodd
      cases h
      rw [Progress.read_put, Progress.read_put, Token.leaves_tag_odd hodd, List.append_assoc]
    · rename_i heven
      rw [Progress.read_of_tag h, Progress.read_put, Token.leaves_tag_even heven]

/-- What is read of tokens is what each of them leaves. -/
theorem Progress.read_of_foldlM {p q : Progress} {ts : List Token} (h : ts.foldlM Progress.token p = .ok q) :
    q.read.reverse = p.read.reverse ++ ts.flatMap Token.leaves := by
  induction ts generalizing p with
  | nil =>
    cases h
    exact (List.append_nil _).symm
  | cons t ts ih =>
    rw [List.foldlM_cons] at h
    cases htoken : p.token t with
    | error e =>
      rw [htoken] at h
      cases h
    | ok r =>
      rw [htoken] at h
      rw [ih h, Progress.read_of_token htoken, List.flatMap_cons, List.append_assoc]

/-! ## Brackets -/

/-- How many opening brackets a text has. -/
def brackets (t : Text) : Nat := t.count (.char '[')

@[simp] theorem brackets_append (s t : Text) : brackets (s ++ t) = brackets s + brackets t := List.count_append

@[simp] theorem brackets_replicate (n : Nat) : brackets (List.replicate n (.char '\\')) = 0 := by
  simp [brackets, List.count_replicate]

theorem Token.brackets_leaves_le (t : Token) : brackets t.leaves ≤ brackets t.written := by
  cases t with
  | plain c => exact Nat.le_refl _
  | bracket n => simp [Token.leaves, Token.written]
  | tag n inside =>
    by_cases hodd : n % 2 = 1
    · simp [Token.leaves_tag_odd hodd, Token.written]
    · simp [Token.leaves_tag_even hodd]

/-- A tag that counts takes its bracket with it. -/
theorem Token.isLiteral_of_brackets {t : Token} (h : brackets t.written ≤ brackets t.leaves) : t.IsLiteral := by
  cases t with
  | tag n inside =>
    by_cases hodd : n % 2 = 1
    · exact hodd
    · rw [Token.leaves_tag_even hodd, brackets_replicate] at h
      simp [Token.written, tagText, brackets] at h
  | _ => trivial

theorem brackets_flatMap_leaves_le (ts : List Token) :
    brackets (ts.flatMap Token.leaves) ≤ brackets (ts.flatMap Token.written) := by
  induction ts with
  | nil => exact Nat.le_refl _
  | cons t ts ih =>
    have ht := t.brackets_leaves_le
    rw [List.flatMap_cons, List.flatMap_cons, brackets_append, brackets_append]
    omega

/-- If all opening brackets are left, no token is a tag that counts. -/
theorem isLiteral_of_brackets {ts : List Token}
    (h : brackets (ts.flatMap Token.written) ≤ brackets (ts.flatMap Token.leaves)) : ∀ t ∈ ts, t.IsLiteral := by
  induction ts with
  | nil => exact List.forall_mem_nil _
  | cons t ts ih =>
    have ht := t.brackets_leaves_le
    have hts := brackets_flatMap_leaves_le ts
    rw [List.flatMap_cons, List.flatMap_cons, brackets_append, brackets_append] at h
    exact List.forall_mem_cons.mpr ⟨Token.isLiteral_of_brackets (by omega), ih (by omega)⟩

/-! ## One text behind another -/

theorem getLast?_append_ne {x : CodePoint} {s t : Text} (hs : s.getLast? ≠ some x) (ht : t.getLast? ≠ some x) :
    (s ++ t).getLast? ≠ some x := by
  rw [List.getLast?_append]
  cases hlast : t.getLast? with
  | none => exact hs
  | some y =>
    rw [hlast] at ht
    exact ht

theorem getLast?_ne_of_append {x : CodePoint} {s t : Text} (h : (s ++ t).getLast? ≠ some x) : t.getLast? ≠ some x := by
  intro ht
  rw [List.getLast?_append, ht] at h
  exact h rfl

section

variable {last : Text} (hlast : untilClosing last = none)

include hlast

theorem untilClosing_append_eq_none_iff {s : Text} : untilClosing (s ++ last) = none ↔ untilClosing s = none := by
  fun_induction untilClosing s with
  | case1 => exact ⟨fun _ => rfl, fun _ => hlast⟩
  | case2 rest => exact ⟨fun h => absurd h (Option.some_ne_none _), fun h => absurd h (Option.some_ne_none _)⟩
  | case3 rest => exact ⟨fun _ => rfl, fun _ => rfl⟩
  | case4 c rest hclose hopen ih =>
    rw [List.cons_append, untilClosing, Option.map_eq_none_iff, Option.map_eq_none_iff, ih]
    · exact hclose
    · exact hopen

/-- A text that closes nothing closes no tag that is open in front of it. -/
theorem tagBehind?_append_eq_none_iff {s : Text} : tagBehind? (s ++ last) = none ↔ tagBehind? s = none := by
  rw [tagBehind?_eq_none_iff, tagBehind?_eq_none_iff]
  cases s with
  | nil =>
    constructor
    · intro _ c rest he
      cases he
    · rintro - c rest he hc
      rw [List.nil_append] at he
      subst he
      rw [← List.singleton_append, untilClosing_eq_none_iff] at hlast
      rw [untilClosing_eq_none_iff]
      refine fun hmem => hlast ?_
      rw [List.singleton_append, List.takeWhile_cons_of_pos]
      · exact List.mem_cons_of_mem _ hmem
      · rw [decide_eq_true_iff]
        rintro ⟨⟩
        cases hc
  | cons d s =>
    constructor
    · intro h c rest he hc
      obtain ⟨rfl, rfl⟩ := List.cons.inj he
      exact (untilClosing_append_eq_none_iff hlast).mp (h c _ rfl hc)
    · intro h c rest he hc
      obtain ⟨rfl, rfl⟩ := List.cons.inj he
      exact (untilClosing_append_eq_none_iff hlast).mpr (h c _ rfl hc)

/-- Behind a text that does not end in a backslash, another one that closes nothing has its own tokens. -/
theorem tokensBehind_append {n : Nat} {s : Text} (hend : s.getLast? ≠ some (.char '\\')) (hn : s = [] → n = 0) :
    tokensBehind n (s ++ last) = tokensBehind n s ++ tokens last := by
  fun_induction tokensBehind n s with
  | case1 n =>
    rw [hn rfl]
    rfl
  | case2 n rest ih =>
    rw [List.cons_append, tokensBehind_backslash]
    refine ih (getLast?_ne_of_append (s := [.char '\\']) hend) fun hrest => ?_
    subst hrest
    exact absurd rfl hend
  | case3 n rest inside after h _ ih =>
    obtain ⟨rfl, hinside⟩ := tagBehind?_eq_some_iff.mp h
    have hbehind : tagBehind? (inside ++ .char ']' :: after ++ last) = some (inside, after ++ last) :=
      tagBehind?_eq_some_iff.mpr ⟨by rw [List.append_assoc, List.cons_append], hinside⟩
    have hafter : after.getLast? ≠ some (.char '\\') :=
      getLast?_ne_of_append (s := .char '[' :: inside ++ [.char ']']) (by simpa using hend)
    rw [List.cons_append, tokensBehind_tag n hbehind, ih hafter fun _ => rfl, List.cons_append]
  | case4 n rest h ih =>
    rw [List.cons_append, tokensBehind_bracket n ((tagBehind?_append_eq_none_iff hlast).mpr h),
      ih (getLast?_ne_of_append (s := [.char '[']) hend) fun _ => rfl, List.cons_append]
  | case5 n c rest hc ho ih =>
    rw [List.cons_append, tokensBehind_plain n _ hc ho,
      ih (getLast?_ne_of_append (s := [c]) hend) fun _ => rfl, List.append_assoc, List.cons_append]

end

/-- A text is one that does not end in a backslash, and backslashes. -/
theorem exists_backslashes_behind (s : Text) :
    ∃ body k, s = body ++ List.replicate k (.char '\\') ∧ body.getLast? ≠ some (.char '\\') := by
  induction s with
  | nil => exact ⟨[], 0, rfl, nofun⟩
  | cons c s ih =>
    obtain ⟨body, k, rfl, hbody⟩ := ih
    cases body with
    | nil =>
      by_cases hc : c = .char '\\'
      · exact ⟨[], k + 1, by rw [hc]; rfl, hbody⟩
      · exact ⟨[c], k, rfl, fun h => hc (Option.some.inj h)⟩
    | cons d body => exact ⟨c :: d :: body, k, rfl, by rwa [List.getLast?_cons_cons]⟩

/-! ## Unmarked texts -/

/-- `Unmarked s after`: nothing in the text `s` is taken for markup if `after` stands behind it. -/
structure Unmarked (s after : Text) : Prop where
  noTag : ∀ rest, .char '[' :: rest <:+ s → tagBehind? (rest ++ after) = none
  noBackslash : ¬ [.char '\\', .char '['] <:+: s

/-- `Loses left s`: what is `left` agrees with `s` up to a backslash that it does not have. -/
def Loses (left s : Text) : Prop :=
  ∃ u c v w, c ≠ .char '\\' ∧ left = u ++ c :: v ∧ s = u ++ .char '\\' :: w

namespace Loses

variable {left s : Text}

theorem ne (h : Loses left s) : left ≠ s := by
  obtain ⟨u, c, v, w, hc, rfl, rfl⟩ := h
  exact fun he => hc (List.cons.inj (List.append_cancel_left he)).1

theorem append (h : Loses left s) (x y : Text) : Loses (left ++ x) (s ++ y) := by
  obtain ⟨u, c, v, w, hc, rfl, rfl⟩ := h
  exact ⟨u, c, v ++ x, w ++ y, hc, by rw [List.append_assoc, List.cons_append],
    by rw [List.append_assoc, List.cons_append]⟩

theorem behind (h : Loses left s) (x : Text) : Loses (x ++ left) (x ++ s) := by
  obtain ⟨u, c, v, w, hc, rfl, rfl⟩ := h
  exact ⟨x ++ u, c, v, w, hc, (List.append_assoc ..).symm, (List.append_assoc ..).symm⟩

/-- Fewer backslashes are left than there were. -/
theorem of_lt {m n : Nat} (h : m < n) {c : CodePoint} (hc : c ≠ .char '\\') (v w : Text) :
    Loses (List.replicate m (.char '\\') ++ c :: v) (List.replicate n (.char '\\') ++ w) := by
  obtain ⟨d, rfl⟩ := Nat.exists_eq_add_of_lt h
  refine ⟨_, c, v, List.replicate d (.char '\\') ++ w, hc, rfl, ?_⟩
  rw [Nat.add_assoc, ← List.replicate_append_replicate, List.replicate_succ, List.append_assoc, List.cons_append]

end Loses

theorem unmarked_nil (after : Text) : Unmarked [] after :=
  ⟨fun _ h => absurd (List.suffix_nil.mp h) (List.cons_ne_nil _ _),
    fun h => absurd (List.infix_nil.mp h) (List.cons_ne_nil _ _)⟩

theorem unmarked_cons_iff {c : CodePoint} {s after : Text} :
    Unmarked (c :: s) after ↔ (c = .char '[' → tagBehind? (s ++ after) = none) ∧
      (c = .char '\\' → s.head? ≠ some (.char '[')) ∧ Unmarked s after := by
  constructor
  · rintro ⟨htag, hslash⟩
    refine ⟨?_, ?_, fun rest h => htag rest (h.trans (List.suffix_cons c s)),
      fun h => hslash (h.trans (List.suffix_cons c s).isInfix)⟩
    · rintro rfl
      exact htag s List.suffix_rfl
    · rintro rfl h
      obtain ⟨rest, rfl⟩ := List.head?_eq_some_iff.mp h
      exact hslash ⟨[], rest, rfl⟩
  · rintro ⟨hopen, hslash, htag, hno⟩
    refine ⟨fun rest h => ?_, fun h => ?_⟩
    · rcases List.suffix_cons_iff.mp h with he | h
      · obtain ⟨rfl, rfl⟩ := List.cons.inj he
        exact hopen rfl
      · exact htag rest h
    · rcases List.infix_cons_iff.mp h with h | h
      · obtain ⟨rest, he⟩ := h
        obtain ⟨rfl, rfl⟩ := List.cons.inj he
        exact hslash rfl rfl
      · exact hno h

theorem unmarked_behind_iff {n : Nat} {s after : Text} :
    Unmarked (List.replicate n (.char '\\') ++ s) after ↔ (0 < n → s.head? ≠ some (.char '[')) ∧ Unmarked s after := by
  induction n with
  | zero => exact ⟨fun h => ⟨fun hn => absurd hn (Nat.lt_irrefl 0), h⟩, And.right⟩
  | succ n ih =>
    rw [List.replicate_succ, List.cons_append, unmarked_cons_iff, ih]
    constructor
    · rintro ⟨-, hslash, hs⟩
      refine ⟨fun _ => ?_, hs.2⟩
      cases n with
      | zero => exact hslash rfl
      | succ n => exact hs.1 (Nat.succ_pos n)
    · rintro ⟨hhead, hs⟩
      refine ⟨nofun, fun _ => ?_, fun _ => hhead (Nat.succ_pos n), hs⟩
      cases n with
      | zero => exact hhead Nat.one_pos
      | succ n => exact nofun

/-- What closes nothing is no matter to the tags in front. -/
theorem unmarked_append_iff {s last : Text} (hlast : untilClosing last = none) : Unmarked s last ↔ Unmarked s [] := by
  constructor
  · intro h
    refine ⟨fun rest hrest => ?_, h.noBackslash⟩
    rw [List.append_nil]
    exact (tagBehind?_append_eq_none_iff hlast).mp (h.noTag rest hrest)
  · intro h
    refine ⟨fun rest hrest => (tagBehind?_append_eq_none_iff hlast).mpr ?_, h.noBackslash⟩
    have hnone := h.noTag rest hrest
    rwa [List.append_nil] at hnone

theorem replicate_append_backslash (n : Nat) (s : Text) :
    List.replicate n (CodePoint.char '\\') ++ .char '\\' :: s = List.replicate (n + 1) (.char '\\') ++ s := by
  rw [List.replicate_succ', List.append_assoc]
  rfl

theorem left_backslashes (n : Nat) : (backslashes n).flatMap Token.left = List.replicate n (.char '\\') := by
  induction n with
  | zero => rfl
  | succ n ih =>
    rw [backslashes, List.replicate_succ, List.flatMap_cons, ← backslashes, ih]
    rfl

theorem isLiteral_backslashes (n : Nat) : ∀ t ∈ backslashes n, t.IsLiteral := by
  intro t ht
  rw [List.eq_of_mem_replicate ht]
  trivial

/-- The tokens of an unmarked text leave it as it is. -/
theorem Unmarked.exists_tokens {after : Text} (hafter : ∀ n, tokensBehind n after = backslashes n ++ tokens after)
    {n : Nat} {s : Text} (h : Unmarked (List.replicate n (.char '\\') ++ s) after) :
    ∃ ts, tokensBehind n (s ++ after) = ts ++ tokens after ∧ (∀ t ∈ ts, t.IsLiteral) ∧
      ts.flatMap Token.left = List.replicate n (.char '\\') ++ s := by
  induction s generalizing n with
  | nil =>
    refine ⟨backslashes n, hafter n, isLiteral_backslashes n, ?_⟩
    rw [left_backslashes, List.append_nil]
  | cons c s ih =>
    by_cases hc : c = .char '\\'
    · subst hc
      rw [replicate_append_backslash] at h ⊢
      rw [List.cons_append, tokensBehind_backslash]
      exact ih h
    · obtain ⟨hhead, hs⟩ := unmarked_behind_iff.mp h
      obtain ⟨hopen, -, hs⟩ := unmarked_cons_iff.mp hs
      obtain ⟨ts, htokens, hliteral, hleft⟩ := ih (n := 0) hs
      by_cases ho : c = .char '['
      · subst ho
        obtain rfl : n = 0 := Nat.eq_zero_of_not_pos fun hn => hhead hn rfl
        refine ⟨.bracket 0 :: ts, ?_, List.forall_mem_cons.mpr ⟨trivial, hliteral⟩, ?_⟩
        · rw [List.cons_append, tokensBehind_bracket 0 (hopen rfl), htokens, List.cons_append]
        · rw [List.flatMap_cons, hleft]
          rfl
      · refine ⟨backslashes n ++ .plain c :: ts, ?_, ?_, ?_⟩
        · rw [List.cons_append, tokensBehind_plain n _ hc ho, htokens, List.append_assoc, List.cons_append]
        · rw [List.forall_mem_append, List.forall_mem_cons]
          exact ⟨isLiteral_backslashes n, trivial, hliteral⟩
        · rw [List.flatMap_append, List.flatMap_cons, left_backslashes, hleft]
          rfl

/-- If no tag in a text counts, the text is unmarked, or else a backslash gets lost. -/
theorem unmarked_or_loses {n : Nat} {s after : Text} (h : ∀ t ∈ tokensBehind n (s ++ after), t.IsLiteral) :
    Unmarked (List.replicate n (.char '\\') ++ s) after ∨
      ∀ z, Loses ((tokensBehind n (s ++ after)).flatMap Token.left) (List.replicate n (.char '\\') ++ (s ++ z)) := by
  induction s generalizing n with
  | nil =>
    refine .inl (unmarked_behind_iff.mpr ⟨fun _ => nofun, unmarked_nil after⟩)
  | cons c s ih =>
    by_cases hc : c = .char '\\'
    · subst hc
      rw [List.cons_append, tokensBehind_backslash] at h ⊢
      simp only [List.cons_append, replicate_append_backslash]
      exact ih h
    · by_cases ho : c = .char '['
      · subst ho
        cases htag : tagBehind? (s ++ after) with
        | some found =>
          rw [List.cons_append, tokensBehind_tag n htag] at h ⊢
          have hodd : n % 2 = 1 := (List.forall_mem_cons.mp h).1
          refine .inr fun z => ?_
          rw [List.flatMap_cons, Token.left, List.append_assoc]
          exact Loses.of_lt (by omega) (by decide) _ _
        | none =>
          rw [List.cons_append, tokensBehind_bracket n htag] at h ⊢
          cases n with
          | zero =>
            rw [List.flatMap_cons]
            refine (ih (List.forall_mem_cons.mp h).2).imp (fun hs => ?_) fun hs z => (hs z).behind [.char '[']
            exact unmarked_cons_iff.mpr ⟨fun _ => htag, nofun, hs⟩
          | succ n =>
            refine .inr fun z => ?_
            rw [List.flatMap_cons, Token.left, List.append_assoc]
            exact Loses.of_lt (Nat.lt_succ_self n) (by decide) _ _
      · rw [List.cons_append, tokensBehind_plain n _ hc ho] at h ⊢
        rw [List.forall_mem_append, List.forall_mem_cons] at h
        rw [List.flatMap_append, List.flatMap_cons, left_backslashes]
        refine (ih h.2.2).imp (fun hs => ?_) fun hs z => ((hs z).behind [c]).behind _
        refine unmarked_behind_iff.mpr ⟨fun _ he => ho (Option.some.inj he), unmarked_cons_iff.mpr ⟨?_, ?_, hs⟩⟩
        · exact fun he => absurd he ho
        · exact fun he => absurd he hc

/-- A text without opening brackets is all of plain tokens. -/
theorem tokensBehind_of_noBracket {t : Text} (h : .char '[' ∉ t) (n : Nat) :
    tokensBehind n t = backslashes n ++ t.map Token.plain := by
  induction t generalizing n with
  | nil => simp [tokensBehind_nil]
  | cons c t ih =>
    rw [List.mem_cons, not_or] at h
    by_cases hc : c = .char '\\'
    · subst hc
      rw [tokensBehind_backslash, ih h.2, backslashes, List.replicate_succ', List.append_assoc]
      rfl
    · rw [tokensBehind_plain n t hc fun ho => h.1 ho.symm, ih h.2]
      rfl

theorem tokens_of_noBracket {t : Text} (h : .char '[' ∉ t) : tokens t = t.map Token.plain :=
  tokensBehind_of_noBracket h 0

theorem tokensBehind_eq_of_noBracket {t : Text} (h : .char '[' ∉ t) (n : Nat) :
    tokensBehind n t = backslashes n ++ tokens t := by
  rw [tokens_of_noBracket h, tokensBehind_of_noBracket h]

theorem untilClosing_of_not_mem {t : Text} (h : .char ']' ∉ t) : untilClosing t = none := by
  rw [untilClosing_eq_none_iff]
  exact fun hmem => h ((List.takeWhile_prefix _).subset hmem)

/-- An unmarked text on its own. -/
theorem Unmarked.left_tokens {s : Text} (h : Unmarked s []) :
    (∀ t ∈ tokens s, t.IsLiteral) ∧ (tokens s).flatMap Token.left = s := by
  obtain ⟨ts, htokens, hts, hleft⟩ := Unmarked.exists_tokens (n := 0) (tokensBehind_eq_of_noBracket List.not_mem_nil) h
  have hs : tokens s = ts := by simpa [tokens, tokensBehind_nil, backslashes] using htokens
  rw [hs]
  exact ⟨hts, hleft⟩

theorem unmarked_or_loses_alone {s : Text} (h : ∀ t ∈ tokens s, t.IsLiteral) :
    Unmarked s [] ∨ ∀ z, Loses ((tokens s).flatMap Token.left) (s ++ z) := by
  have hs := @unmarked_or_loses 0 s [] (by rwa [List.append_nil])
  rwa [List.append_nil] at hs

theorem getLast?_append_backslashes (s : Text) {k : Nat} (hk : k ≠ 0) :
    (s ++ List.replicate k (CodePoint.char '\\')).getLast? = some (.char '\\') := by
  rw [List.getLast?_append, List.getLast?_replicate, if_neg hk]
  rfl

/-- A tag behind a text takes the backslashes at its end. -/
theorem tokens_tagged {body inside : Text} (hbody : body.getLast? ≠ some (.char '\\')) (hinside : IsInside inside)
    (k : Nat) (rest : Text) :
    tokens (body ++ (List.replicate k (.char '\\') ++ (tagText inside ++ rest))) =
      tokens body ++ .tag k inside :: tokens rest := by
  have hclosing : untilClosing (List.replicate k (.char '\\') ++ (tagText inside ++ rest)) = none := by
    rw [untilClosing_eq_none_iff, takeWhile_backslashes, List.mem_append]
    rintro (h | h)
    · cases List.eq_of_mem_replicate h
    · cases h
  have hbehind : tagBehind? (inside ++ .char ']' :: rest) = some (inside, rest) :=
    tagBehind?_eq_some_iff.mpr ⟨rfl, hinside⟩
  have htag : tagText inside ++ rest = .char '[' :: (inside ++ .char ']' :: rest) := by simp [tagText]
  rw [tokens, tokensBehind_append hclosing hbody fun _ => rfl, tokens, tokens, tokensBehind_replicate, Nat.zero_add,
    htag, tokensBehind_tag k hbehind]
  rfl

/-- A tag leaves a text in front of it as it is only if the text is unmarked and the tag has no
    backslashes in front. -/
theorem unmarked_of_leaves {body inside : Text} {k : Nat}
    (h : (tokens body).flatMap Token.leaves ++ (Token.tag k inside).leaves = body ++ List.replicate k (.char '\\')) :
    Unmarked body [] ∧ k = 0 := by
  by_cases hodd : k % 2 = 1
  · rw [Token.leaves_tag_odd hodd, tagText, ← List.append_assoc, ← List.append_assoc] at h
    have hbrace := congrArg List.getLast? h
    rw [List.getLast?_concat, getLast?_append_backslashes body (by omega)] at hbrace
    cases hbrace
  · rw [Token.leaves_tag_even hodd] at h
    have hall : ∀ t ∈ tokens body, t.IsLiteral := by
      have hbrackets := congrArg brackets h
      rw [brackets_append, brackets_append, brackets_replicate, brackets_replicate] at hbrackets
      refine isLiteral_of_brackets ?_
      rw [tokens, written_tokensBehind, ← tokens]
      exact Nat.le_of_eq hbrackets.symm
    rw [flatMap_leaves_of_isLiteral hall] at h
    rcases unmarked_or_loses_alone hall with hs | hs
    · rw [hs.left_tokens.2] at h
      have hlength := congrArg List.length (List.append_cancel_left h)
      rw [List.length_replicate, List.length_replicate] at hlength
      exact ⟨hs, by omega⟩
    · refine absurd h (Loses.ne ?_)
      have hloses := (hs (List.replicate k (.char '\\'))).append (List.replicate (k / 2) (.char '\\')) []
      rwa [List.append_nil] at hloses

namespace Reads

variable {front : Text} {p : Progress} (h : Reads front .start p)

include h

theorem read_eq_foldlM (s : Text) :
    Markup.read (front ++ s) = ((tokens s).foldlM Progress.token p).map Progress.marked := by
  obtain ⟨ts, htokens, hfold⟩ := h
  rw [Markup.read, htokens, List.foldlM_append]
  show (ts.foldlM Progress.token .start >>= _).map _ = _
  rw [hfold]
  rfl

theorem leaves_of_plain {s left : Text} (hplain : Markup.plain (front ++ s) = .ok (p.read.reverse ++ left)) :
    (tokens s).flatMap Token.leaves = left := by
  rw [Markup.plain, h.read_eq_foldlM] at hplain
  cases hfold : (tokens s).foldlM Progress.token p with
  | error e =>
    rw [hfold] at hplain
    cases hplain
  | ok q =>
    rw [hfold] at hplain
    have hread : q.read.reverse = p.read.reverse ++ left := Except.ok.inj hplain
    rw [Progress.read_of_foldlM hfold] at hread
    exact List.append_cancel_left hread

/-- In front of a text in which no tag counts, a text is left as it is only if it is unmarked. -/
theorem unmarked_of_plain {s after left : Text} (hafter : ∀ n, tokensBehind n after = backslashes n ++ tokens after)
    (hbrackets : brackets after ≤ brackets left)
    (hplain : Markup.plain (front ++ (s ++ after)) = .ok (p.read.reverse ++ (s ++ left))) :
    Unmarked s after ∧ (tokens after).flatMap Token.left = left := by
  have hleaves := h.leaves_of_plain hplain
  have hall : ∀ t ∈ tokens (s ++ after), t.IsLiteral := by
    refine isLiteral_of_brackets ?_
    rw [hleaves, tokens, written_tokensBehind, List.replicate_zero, List.nil_append, brackets_append, brackets_append]
    omega
  rw [flatMap_leaves_of_isLiteral hall] at hleaves
  rcases unmarked_or_loses (n := 0) hall with hs | hs
  · obtain ⟨ts, htokens, -, hleft⟩ := Unmarked.exists_tokens hafter hs
    rw [tokens, htokens, List.flatMap_append, hleft] at hleaves
    exact ⟨hs, List.append_cancel_left hleaves⟩
  · exact absurd hleaves (hs left).ne

theorem read_of_unmarked {s after : Text} (hafter : ∀ n, tokensBehind n after = backslashes n ++ tokens after)
    (hliteral : ∀ t ∈ tokens after, t.IsLiteral) (hs : Unmarked s after) :
    Markup.read (front ++ (s ++ after)) = .ok (p.put (s ++ (tokens after).flatMap Token.left)).marked := by
  obtain ⟨ts, htokens, hts, hleft⟩ := Unmarked.exists_tokens (n := 0) hafter hs
  have hall : ∀ t ∈ tokens (s ++ after), t.IsLiteral := by
    rw [tokens, htokens, List.forall_mem_append]
    exact ⟨hts, hliteral⟩
  rw [h.read_eq_foldlM, Progress.foldlM_of_isLiteral p hall, tokens, htokens, List.flatMap_append, hleft]
  rfl

/-- In front of a tag, a text is left as it is only if it is unmarked and does not end in a backslash. -/
theorem unmarked_of_plain_tagged {s inside : Text} (hinside : IsInside inside)
    (hplain : Markup.plain (front ++ (s ++ tagText inside)) = .ok (p.read.reverse ++ s)) :
    Unmarked s [] ∧ s.getLast? ≠ some (.char '\\') := by
  obtain ⟨body, k, rfl, hbody⟩ := exists_backslashes_behind s
  have htokens : tokens (body ++ List.replicate k (.char '\\') ++ tagText inside) = tokens body ++ [.tag k inside] := by
    have htagged := tokens_tagged hbody hinside k []
    rwa [List.append_nil, ← List.append_assoc, tokens, tokens, tokens, tokensBehind_nil] at htagged
  have hleaves := h.leaves_of_plain hplain
  rw [htokens, List.flatMap_append, List.flatMap_singleton] at hleaves
  obtain ⟨hs, rfl⟩ := unmarked_of_leaves hleaves
  rw [List.replicate_zero, List.append_nil]
  exact ⟨hs, hbody⟩

theorem read_of_unmarked_tagged {s inside : Text} {q : Progress} (hinside : IsInside inside) (hs : Unmarked s [])
    (hend : s.getLast? ≠ some (.char '\\')) (htag : (p.put s).tag inside = .ok q) :
    Markup.read (front ++ (s ++ tagText inside)) = .ok q.marked := by
  have htokens := tokens_tagged hend hinside 0 []
  obtain ⟨hliteral, hleft⟩ := hs.left_tokens
  rw [List.replicate_zero, List.nil_append, List.append_nil] at htokens
  rw [h.read_eq_foldlM, htokens, List.foldlM_append, Progress.foldlM_of_isLiteral p hliteral, hleft]
  show ((p.put s).tag inside >>= fun q => (tokens []).foldlM Progress.token q).map _ = _
  rw [htag, tokens, tokensBehind_nil]
  rfl

end Reads

end FieldForest.Markup
