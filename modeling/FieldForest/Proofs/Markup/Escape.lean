/-
  FieldForest.Proofs.Markup.Escape — what is escaped opens and closes no tag.

  An escaped text has the tokens of the text itself, only that every tag has an odd number of
  backslashes in front. Tokens like these leave text and do nothing else, so escaped text can
  stand behind any marked-up text that is complete: it has no part in what is open there.

  Proved:
  - `tagBehind?_eq_some_iff` / `untilClosing_eq_none_iff`: what is a tag, and when there is none.
  - `tokens_escape` / `isLiteral_of_mem_tokens_escape`: the tokens of an escaped text, none of them
    a tag that counts.
  - `Reads.read_escape`: what is read of an escaped text behind a text that is complete.
  - `plain_escape`: what is left of an escaped text on its own.
-/
import FieldForest.Markup.Marked

namespace FieldForest.Markup

/-! ## Tags -/

theorem untilClosing_eq_some_iff {s inside after : Text} :
    untilClosing s = some (inside, after) ↔
      s = inside ++ .char ']' :: after ∧ .char '[' ∉ inside ∧ .char ']' ∉ inside := by
  fun_induction untilClosing s generalizing inside after with
  | case1 => simp
  | case2 rest =>
    cases inside with
    | nil => simp
    | cons d inside =>
      simp only [Option.some.injEq, Prod.mk.injEq, reduceCtorEq, false_and, List.cons_append, List.cons.injEq, false_iff]
      rintro ⟨⟨rfl, -⟩, -, h⟩
      exact h List.mem_cons_self
  | case3 rest =>
    cases inside with
    | nil => simp
    | cons d inside =>
      simp only [reduceCtorEq, List.cons_append, List.cons.injEq, false_iff]
      rintro ⟨⟨rfl, -⟩, h, -⟩
      exact h List.mem_cons_self
  | case4 c rest hclose hopen ih =>
    rw [Option.map_eq_some_iff]
    constructor
    · rintro ⟨⟨i, a⟩, hrest, he⟩
      cases he
      obtain ⟨rfl, ho, hc⟩ := ih.mp hrest
      refine ⟨rfl, ?_, ?_⟩ <;> rw [List.mem_cons, not_or]
      · exact ⟨fun h => hopen h.symm, ho⟩
      · exact ⟨fun h => hclose h.symm, hc⟩
    · rintro ⟨he, ho, hc⟩
      cases inside with
      | nil => exact absurd (List.cons.inj he).1 hclose
      | cons d inside =>
        obtain ⟨rfl, rfl⟩ := List.cons.inj he
        rw [List.mem_cons, not_or] at ho hc
        exact ⟨(inside, after), ih.mpr ⟨rfl, ho.2, hc.2⟩, rfl⟩

/-- Nothing closes exactly if no closing bracket stands in front of the first opening one. -/
theorem untilClosing_eq_none_iff {s : Text} :
    untilClosing s = none ↔ .char ']' ∉ s.takeWhile (· ≠ .char '[') := by
  fun_induction untilClosing s with
  | case1 => simp
  | case2 rest => simp
  | case3 rest => simp
  | case4 c rest hclose hopen ih =>
    rw [Option.map_eq_none_iff, ih, List.takeWhile_cons_of_pos (by simpa using hopen), List.mem_cons, not_or]
    exact ⟨fun h => ⟨fun hc => hclose hc.symm, h⟩, And.right⟩

/-- What may stand between the brackets of a tag. -/
def IsInside (t : Text) : Prop :=
  ∃ c rest, t = .char c :: rest ∧ beginsTag c = true ∧ .char '[' ∉ rest ∧ .char ']' ∉ rest

theorem tagBehind?_eq_some_iff {s inside after : Text} :
    tagBehind? s = some (inside, after) ↔ s = inside ++ .char ']' :: after ∧ IsInside inside := by
  unfold tagBehind?
  split
  · rename_i c rest
    by_cases hc : beginsTag c = true
    · rw [if_pos hc, Option.map_eq_some_iff]
      constructor
      · rintro ⟨⟨i, a⟩, hrest, he⟩
        cases he
        obtain ⟨rfl, hbrackets⟩ := untilClosing_eq_some_iff.mp hrest
        exact ⟨rfl, c, i, rfl, hc, hbrackets⟩
      · rintro ⟨he, d, t, rfl, -, hbrackets⟩
        cases he
        exact ⟨(t, after), untilClosing_eq_some_iff.mpr ⟨rfl, hbrackets⟩, rfl⟩
    · rw [if_neg hc]
      constructor
      · intro h
        cases h
      · rintro ⟨he, d, t, rfl, hd, -⟩
        cases he
        exact absurd hd hc
  · rename_i hs
    constructor
    · intro h
      cases h
    · rintro ⟨rfl, d, t, rfl, -⟩
      exact absurd rfl (hs d _)

/-! ## Tokens -/

section

variable (n : Nat) (rest : Text)

theorem tokensBehind_nil : tokensBehind n [] = backslashes n := by
  rw [tokensBehind]

theorem tokens_nil : tokens [] = [] := tokensBehind_nil 0

theorem tokensBehind_backslash : tokensBehind n (.char '\\' :: rest) = tokensBehind (n + 1) rest := by
  rw [tokensBehind]

theorem tokensBehind_tag {rest inside after : Text} (h : tagBehind? rest = some (inside, after)) :
    tokensBehind n (.char '[' :: rest) = .tag n inside :: tokensBehind 0 after := by
  rw [tokensBehind]
  split
  · rename_i h'
    cases h.symm.trans h'
    rfl
  · rename_i h'
    cases h.symm.trans h'

theorem tokensBehind_bracket {rest : Text} (h : tagBehind? rest = none) :
    tokensBehind n (.char '[' :: rest) = .bracket n :: tokensBehind 0 rest := by
  rw [tokensBehind]
  split
  · rename_i h'
    cases h.symm.trans h'
  · rfl

theorem tokensBehind_plain {c : CodePoint} (hc : c ≠ .char '\\') (ho : c ≠ .char '[') :
    tokensBehind n (c :: rest) = backslashes n ++ .plain c :: tokensBehind 0 rest := by
  rw [tokensBehind]
  · exact hc
  · exact ho

end

theorem tokensBehind_replicate (k n : Nat) (rest : Text) :
    tokensBehind k (List.replicate n (.char '\\') ++ rest) = tokensBehind (k + n) rest := by
  induction n generalizing k with
  | zero => rfl
  | succ n ih => rw [List.replicate_succ, List.cons_append, tokensBehind_backslash, ih, Nat.add_right_comm, Nat.add_assoc]

/-! ## Escaped texts -/

/-- Nothing, or a backslash: what an escaped text may end with. -/
def IsEnd (t : Text) : Prop := t = [] ∨ t = [.char '\\']

/-- A text whose pieces are escaped one by one, with `n` backslashes in front of it. -/
def escapedBehind (n : Nat) (s : Text) : Text := (tokensBehind n s).flatMap Token.escaped

theorem escaped_backslashes (n : Nat) : (backslashes n).flatMap Token.escaped = List.replicate n (.char '\\') := by
  induction n with
  | zero => rfl
  | succ n ih =>
    rw [backslashes, List.replicate_succ, List.flatMap_cons, ← backslashes, ih]
    rfl

theorem takeWhile_backslashes (n : Nat) (t : Text) :
    (List.replicate n (CodePoint.char '\\') ++ t).takeWhile (· ≠ .char '[') =
      List.replicate n (.char '\\') ++ t.takeWhile (· ≠ .char '[') := by
  refine List.takeWhile_append_of_pos fun c hc => ?_
  rw [List.eq_of_mem_replicate hc]
  rfl

section

variable (n : Nat) (rest : Text)

theorem escapedBehind_nil : escapedBehind n [] = List.replicate n (.char '\\') := by
  rw [escapedBehind, tokensBehind_nil, escaped_backslashes]

theorem escapedBehind_backslash : escapedBehind n (.char '\\' :: rest) = escapedBehind (n + 1) rest := by
  rw [escapedBehind, tokensBehind_backslash, escapedBehind]

theorem escapedBehind_tag {rest inside after : Text} (h : tagBehind? rest = some (inside, after)) :
    escapedBehind n (.char '[' :: rest) =
      List.replicate (2 * n + 1) (.char '\\') ++ (tagText inside ++ escapedBehind 0 after) := by
  rw [escapedBehind, tokensBehind_tag n h, List.flatMap_cons, Token.escaped, List.append_assoc, escapedBehind]

theorem escapedBehind_bracket {rest : Text} (h : tagBehind? rest = none) :
    escapedBehind n (.char '[' :: rest) = List.replicate n (.char '\\') ++ .char '[' :: escapedBehind 0 rest := by
  rw [escapedBehind, tokensBehind_bracket n h, List.flatMap_cons, Token.escaped, List.append_assoc, escapedBehind]
  rfl

theorem escapedBehind_plain {c : CodePoint} (hc : c ≠ .char '\\') (ho : c ≠ .char '[') :
    escapedBehind n (c :: rest) = List.replicate n (.char '\\') ++ c :: escapedBehind 0 rest := by
  rw [escapedBehind, tokensBehind_plain n rest hc ho, List.flatMap_append, escaped_backslashes, List.flatMap_cons,
    escapedBehind]
  rfl

end

/-- Nothing but backslashes gets in front of the first opening bracket. -/
theorem mem_escapedBehind {n : Nat} {s last : Text} (hlast : IsEnd last) :
    ∀ c ∈ (escapedBehind n s ++ last).takeWhile (· ≠ .char '['),
      c = .char '\\' ∨ c ∈ s.takeWhile (· ≠ .char '[') := by
  intro c
  fun_induction tokensBehind n s with
  | case1 n =>
    rw [escapedBehind_nil, takeWhile_backslashes, List.mem_append]
    rintro (h | h)
    · exact .inl (List.eq_of_mem_replicate h)
    · obtain rfl | rfl := hlast
      · cases h
      · exact .inl (List.mem_singleton.mp ((List.takeWhile_prefix _).subset h))
  | case2 n rest ih =>
    rw [escapedBehind_backslash, List.takeWhile_cons_of_pos rfl]
    exact fun h => (ih h).imp_right (List.mem_cons_of_mem _)
  | case3 n rest inside after h =>
    rw [escapedBehind_tag n h, List.append_assoc, takeWhile_backslashes, List.mem_append]
    rintro (h | h)
    · exact .inl (List.eq_of_mem_replicate h)
    · cases h
  | case4 n rest h ih =>
    rw [escapedBehind_bracket n h, List.append_assoc, takeWhile_backslashes, List.mem_append]
    rintro (h | h)
    · exact .inl (List.eq_of_mem_replicate h)
    · cases h
  | case5 n d rest hd ho ih =>
    have hstep (t : Text) : (d :: t).takeWhile (· ≠ .char '[') = d :: t.takeWhile (· ≠ .char '[') :=
      List.takeWhile_cons_of_pos (by simpa using ho)
    rw [escapedBehind_plain n rest hd ho, List.append_assoc, List.cons_append, takeWhile_backslashes, hstep, hstep,
      List.mem_append, List.mem_cons]
    rintro (h | rfl | h)
    · exact .inl (List.eq_of_mem_replicate h)
    · exact .inr List.mem_cons_self
    · exact (ih h).imp_right (List.mem_cons_of_mem _)

theorem head?_escapedBehind {n : Nat} (hn : 0 < n) (s : Text) : (escapedBehind n s).head? = some (.char '\\') := by
  have hreplicate (k : Nat) (hk : 0 < k) (t : Text) :
      (List.replicate k (CodePoint.char '\\') ++ t).head? = some (.char '\\') := by
    obtain ⟨m, rfl⟩ := Nat.exists_eq_add_of_lt hk
    rfl
  fun_induction tokensBehind n s with
  | case1 n =>
    rw [escapedBehind_nil, ← List.append_nil (List.replicate _ _)]
    exact hreplicate n hn []
  | case2 n rest ih =>
    rw [escapedBehind_backslash]
    exact ih (Nat.succ_pos n)
  | case3 n rest inside after h =>
    rw [escapedBehind_tag n h]
    exact hreplicate _ (Nat.succ_pos _) _
  | case4 n rest h =>
    rw [escapedBehind_bracket n h]
    exact hreplicate n hn _
  | case5 n c rest hc ho =>
    rw [escapedBehind_plain n rest hc ho]
    exact hreplicate n hn _

theorem tagBehind?_eq_none_iff {s : Text} :
    tagBehind? s = none ↔ ∀ c rest, s = .char c :: rest → beginsTag c = true → untilClosing rest = none := by
  unfold tagBehind?
  split
  · rename_i c rest
    by_cases hc : beginsTag c = true
    · rw [if_pos hc, Option.map_eq_none_iff]
      constructor
      · intro h d t he hd
        cases he
        exact h
      · intro h
        exact h c rest rfl hc
    · rw [if_neg hc]
      refine ⟨fun _ d t he hd => ?_, fun _ => rfl⟩
      cases he
      exact absurd hd hc
  · rename_i hs
    refine ⟨fun _ d t he => absurd he (hs d t), fun _ => rfl⟩

/-- Where no tag opens, none opens in the escaped text. -/
theorem tagBehind?_escaped {s last : Text} (hlast : IsEnd last) (h : tagBehind? s = none) :
    tagBehind? (escapedBehind 0 s ++ last) = none := by
  rw [tagBehind?_eq_none_iff] at h ⊢
  intro c more he hc
  have hends : c ≠ '\\' ∧ c ≠ '[' := by
    constructor <;> rintro rfl <;> cases hc
  cases s with
  | nil =>
    rw [escapedBehind_nil] at he
    obtain rfl | rfl := hlast <;> cases he
    exact absurd rfl hends.1
  | cons d rest =>
    by_cases hslash : d = .char '\\'
    · subst hslash
      have hhead : (escapedBehind 0 (.char '\\' :: rest) ++ last).head? = some (.char '\\') := by
        rw [escapedBehind_backslash, List.head?_append, head?_escapedBehind (Nat.succ_pos 0)]
        rfl
      rw [he] at hhead
      cases hhead
      exact absurd rfl hends.1
    · by_cases hopen : d = .char '['
      · subst hopen
        cases htag : tagBehind? rest with
        | none =>
          rw [escapedBehind_bracket 0 htag] at he
          cases he
          exact absurd rfl hends.2
        | some t =>
          rw [escapedBehind_tag 0 htag] at he
          cases he
          exact absurd rfl hends.1
      · rw [escapedBehind_plain 0 rest hslash hopen] at he
        obtain ⟨rfl, rfl⟩ := List.cons.inj he
        rw [untilClosing_eq_none_iff]
        intro hmem
        obtain hc' | hmem := mem_escapedBehind hlast _ hmem
        · cases hc'
        · exact untilClosing_eq_none_iff.mp (h c rest rfl hc) hmem

/-- A token with the backslashes of its escaped form. -/
def Token.literal : Token → Token
  | .tag n inside => .tag (2 * n + 1) inside
  | t => t

theorem literal_backslashes (n : Nat) : (backslashes n).map Token.literal = backslashes n := by
  rw [backslashes, List.map_replicate, Token.literal]
  simp

theorem tokensBehind_end {last : Text} (hlast : IsEnd last) (n : Nat) :
    tokensBehind n last = backslashes n ++ tokens last := by
  obtain rfl | rfl := hlast
  · rw [tokens, tokensBehind_nil, tokensBehind_nil]
    exact (List.append_nil _).symm
  · rw [tokens, tokensBehind_backslash, tokensBehind_backslash, tokensBehind_nil, tokensBehind_nil]
    exact List.replicate_succ'

theorem tokens_escapedBehind {last : Text} (hlast : IsEnd last) (n : Nat) (s : Text) :
    tokens (escapedBehind n s ++ last) = (tokensBehind n s).map Token.literal ++ tokens last := by
  fun_induction tokensBehind n s with
  | case1 n =>
    rw [escapedBehind_nil, tokens, tokensBehind_replicate, Nat.zero_add, tokensBehind_end hlast, literal_backslashes]
  | case2 n rest ih =>
    rw [escapedBehind_backslash, ih]
  | case3 n rest inside after h _ ih =>
    have hinside := (tagBehind?_eq_some_iff.mp h).2
    have htag : tagBehind? (inside ++ (.char ']' :: (escapedBehind 0 after ++ last))) =
        some (inside, escapedBehind 0 after ++ last) := tagBehind?_eq_some_iff.mpr ⟨rfl, hinside⟩
    rw [escapedBehind_tag n h, tokens, List.append_assoc, tokensBehind_replicate, Nat.zero_add]
    simp only [tagText, List.append_assoc, List.cons_append, List.nil_append]
    rw [tokensBehind_tag _ htag, List.map_cons, List.cons_append, ← ih]
    rfl
  | case4 n rest h ih =>
    rw [escapedBehind_bracket n h, tokens, List.append_assoc, tokensBehind_replicate, Nat.zero_add, List.cons_append,
      tokensBehind_bracket n (tagBehind?_escaped hlast h), List.map_cons, List.cons_append, ← ih]
    rfl
  | case5 n c rest hc ho ih =>
    rw [escapedBehind_plain n rest hc ho, tokens, List.append_assoc, tokensBehind_replicate, Nat.zero_add,
      List.cons_append, tokensBehind_plain n _ hc ho, List.map_append, List.map_cons, literal_backslashes,
      List.append_assoc, List.cons_append, ← ih]
    rfl

/-- What stands behind the pieces of an escaped text, so that a backslash at its end stays single. -/
def endOf (s : Text) : Text := if endsInBackslash (escapedBehind 0 s) then [.char '\\'] else []

theorem isEnd_endOf (s : Text) : IsEnd (endOf s) := by
  unfold endOf
  split
  · exact .inr rfl
  · exact .inl rfl

theorem escape_eq (s : Text) : escape s = escapedBehind 0 s ++ endOf s := by
  unfold escape endOf
  show (if endsInBackslash (escapedBehind 0 s) = true then escapedBehind 0 s ++ [.char '\\'] else escapedBehind 0 s) = _
  split
  · rfl
  · exact (List.append_nil _).symm

/-- An escaped text has the tokens of the text, with more backslashes in front of its tags. -/
theorem tokens_escape (s : Text) : tokens (escape s) = (tokens s).map Token.literal ++ tokens (endOf s) := by
  rw [escape_eq, tokens_escapedBehind (isEnd_endOf s)]
  rfl

/-! ## Reading -/

/-- A token that leaves text and neither opens nor closes anything. -/
def Token.IsLiteral : Token → Prop
  | .tag n _ => n % 2 = 1
  | _ => True

/-- The text that a token like that leaves. -/
def Token.left : Token → Text
  | .plain c => [c]
  | .bracket n => List.replicate (n - 1) (.char '\\') ++ [.char '[']
  | .tag n inside => List.replicate (n / 2) (.char '\\') ++ tagText inside

theorem isLiteral_literal (t : Token) : t.literal.IsLiteral := by
  cases t with
  | plain c => trivial
  | bracket n => trivial
  | tag n inside =>
    show (2 * n + 1) % 2 = 1
    omega

/-- No token of an escaped text opens or closes anything. -/
theorem isLiteral_of_mem_tokens_escape {s : Text} : ∀ t ∈ tokens (escape s), t.IsLiteral := by
  rw [tokens_escape, List.forall_mem_append, List.forall_mem_map]
  refine ⟨fun t _ => isLiteral_literal t, ?_⟩
  intro t ht
  obtain hend | hend := isEnd_endOf s
  · rw [hend, tokens, tokensBehind_nil] at ht
    cases ht
  · rw [hend, tokens, tokensBehind_backslash, tokensBehind_nil] at ht
    rw [List.eq_of_mem_replicate ht]
    trivial

namespace Progress

theorem put_put (p : Progress) (s t : Text) : (p.put s).put t = p.put (s ++ t) := by
  unfold put
  rw [List.reverse_append, List.append_assoc]

theorem read_put (p : Progress) (t : Text) : (p.put t).read.reverse = p.read.reverse ++ t := by
  show (t.reverse ++ p.read).reverse = _
  rw [List.reverse_append, List.reverse_reverse]

theorem token_of_isLiteral (p : Progress) {t : Token} (h : t.IsLiteral) : p.token t = .ok (p.put t.left) := by
  cases t with
  | plain c => rfl
  | bracket n => rfl
  | tag n inside =>
    have hodd : n % 2 = 1 := h
    unfold token
    dsimp only
    rw [if_pos hodd, put_put]
    rfl

/-- Tokens that open and close nothing put together what each of them leaves. -/
theorem foldlM_of_isLiteral (p : Progress) {ts : List Token} (h : ∀ t ∈ ts, t.IsLiteral) :
    ts.foldlM token p = .ok (p.put (ts.flatMap Token.left)) := by
  induction ts generalizing p with
  | nil => rfl
  | cons t ts ih =>
    obtain ⟨ht, hts⟩ := List.forall_mem_cons.mp h
    rw [List.foldlM_cons, token_of_isLiteral p ht]
    show ts.foldlM token (p.put t.left) = _
    rw [ih _ hts, put_put, List.flatMap_cons]

def start : Progress := ⟨[], [], []⟩

end Progress

/-- The text that is left of an escaped one. -/
def leftOf (s : Text) : Text := (tokens (escape s)).flatMap Token.left

theorem tokensBehind_noBracket {t : Text} (ht : .char '[' ∉ t) {c : CodePoint} (hc : c ≠ .char '\\') (ho : c ≠ .char '[')
    (n : Nat) (rest : Text) :
    tokensBehind n (t ++ c :: rest) = backslashes n ++ (t ++ [c]).map .plain ++ tokens rest := by
  induction t generalizing n with
  | nil =>
    rw [List.nil_append, tokensBehind_plain n rest hc ho, List.append_assoc]
    rfl
  | cons d t ih =>
    rw [List.mem_cons, not_or] at ht
    rw [List.cons_append]
    by_cases hd : d = .char '\\'
    · subst hd
      rw [tokensBehind_backslash, ih ht.2, backslashes, List.replicate_succ']
      simp [backslashes]
    · rw [tokensBehind_plain n _ hd fun h => ht.1 h.symm, ih ht.2]
      simp [backslashes]

theorem left_plain (s : Text) : (s.map Token.plain).flatMap Token.left = s := by
  induction s with
  | nil => rfl
  | cons c s ih =>
    rw [List.map_cons, List.flatMap_cons, ih]
    rfl

theorem tokens_tag {inside : Text} (h : IsInside inside) (rest : Text) :
    tokens (tagText inside ++ rest) = .tag 0 inside :: tokens rest := by
  have hbehind : tagBehind? (inside ++ .char ']' :: rest) = some (inside, rest) := tagBehind?_eq_some_iff.mpr ⟨rfl, h⟩
  rw [tokens, tagText, List.cons_append, List.cons_append, List.append_assoc, List.singleton_append,
    tokensBehind_tag 0 hbehind]
  rfl

/-- `Reads x p q`: whatever follows it, the marked-up text `x` has tokens of its own, and they lead from
    `p` to `q`. -/
def Reads (x : Text) (p q : Progress) : Prop :=
  ∃ ts, (∀ y, tokens (x ++ y) = ts ++ tokens y) ∧ ts.foldlM Progress.token p = .ok q

namespace Reads

variable {x y : Text} {p q r : Progress}

theorem append (hx : Reads x p q) (hy : Reads y q r) : Reads (x ++ y) p r := by
  obtain ⟨ts, hts, hq⟩ := hx
  obtain ⟨us, hus, hr⟩ := hy
  refine ⟨ts ++ us, fun z => ?_, ?_⟩
  · rw [List.append_assoc, hts, hus, List.append_assoc]
  · rw [List.foldlM_append, hq]
    exact hr

theorem tag {inside : Text} (hinside : IsInside inside) (htag : p.tag inside = .ok q) : Reads (tagText inside) p q := by
  refine ⟨[.tag 0 inside], tokens_tag hinside, ?_⟩
  rw [List.foldlM_cons]
  show (p.tag inside >>= pure) = _
  rw [bind_pure, htag]

theorem plain {t : Text} {c : CodePoint} (ht : .char '[' ∉ t) (hc : c ≠ .char '\\') (ho : c ≠ .char '[') :
    Reads (t ++ [c]) p (p.put (t ++ [c])) := by
  refine ⟨(t ++ [c]).map .plain, fun y => ?_, ?_⟩
  · rw [tokens, List.append_assoc, List.singleton_append, tokensBehind_noBracket ht hc ho]
    rfl
  · have hliteral : ∀ x ∈ (t ++ [c]).map Token.plain, x.IsLiteral := List.forall_mem_map.mpr fun _ _ => trivial
    rw [Progress.foldlM_of_isLiteral p hliteral, left_plain]

/-- What is escaped behind a text leaves its own text there, and nothing else changes. -/
theorem read_escape (h : Reads x .start p) (s : Text) : read (x ++ escape s) = .ok (p.put (leftOf s)).marked := by
  obtain ⟨ts, htokens, hfold⟩ := h
  have hliteral : ∀ t ∈ tokens (escape s), t.IsLiteral := isLiteral_of_mem_tokens_escape
  rw [read, htokens, List.foldlM_append]
  show (ts.foldlM Progress.token .start >>= _).map _ = _
  rw [hfold]
  show ((tokens (escape s)).foldlM Progress.token p).map _ = _
  rw [Progress.foldlM_of_isLiteral p hliteral]
  rfl

theorem read_eq (h : Reads x .start p) : read x = .ok p.marked := by
  obtain ⟨ts, htokens, hfold⟩ := h
  have hts : tokens x = ts := by
    have := htokens []
    rwa [tokens_nil, List.append_nil, List.append_nil] at this
  rw [read, hts]
  show (ts.foldlM Progress.token .start).map _ = _
  rw [hfold]
  rfl

end Reads

/-- `Leads front p`: marked-up text that is read on its own, whatever follows it, and how far reading
    it gets. -/
inductive Leads : Text → Progress → Prop
  | nil : Leads [] .start
  | tag {front inside : Text} {p q : Progress} :
      Leads front p → IsInside inside → p.tag inside = .ok q → Leads (front ++ tagText inside) q
  | plain {front t : Text} {c : CodePoint} {p : Progress} :
      Leads front p → .char '[' ∉ t → c ≠ .char '\\' → c ≠ .char '[' →
      Leads (front ++ (t ++ [c])) (p.put (t ++ [c]))

theorem escape_nil : escape [] = [] := by
  rw [escape, tokens_nil]
  rfl

/-- Words without a bracket are escaped apart from what stands behind them. -/
theorem escape_append {t : Text} (ht : .char '[' ∉ t) {c : CodePoint} (hc : c ≠ .char '\\') (ho : c ≠ .char '[')
    (s : Text) : escape (t ++ c :: s) = t ++ c :: escape s := by
  have hends (u : Text) : endsInBackslash (t ++ c :: u) = endsInBackslash u := by
    unfold endsInBackslash
    rw [List.reverse_append, List.reverse_cons, List.append_assoc]
    rcases u.reverse with _ | ⟨d, _ | ⟨e, rest⟩⟩
    · simp [hc]
    · by_cases hd : d = .char '\\' <;> simp [hd, hc]
    · by_cases hd : d = .char '\\' <;> by_cases he : e = .char '\\' <;> simp [hd, he]
  have htokens : tokens (t ++ c :: s) = (t ++ [c]).map .plain ++ tokens s := tokensBehind_noBracket ht hc ho 0 s
  have hplain : ((t ++ [c]).map Token.plain).flatMap Token.escaped = t ++ [c] := by
    rw [List.flatMap_map]
    exact List.flatMap_singleton' _
  unfold escape
  dsimp only
  rw [htokens, List.flatMap_append, hplain, List.append_assoc, List.singleton_append, hends]
  split <;> simp

namespace Leads

variable {front : Text} {p : Progress}

theorem reads (h : Leads front p) : Reads front .start p := by
  induction h with
  | nil => exact ⟨[], fun _ => rfl, rfl⟩
  | tag _ hinside htag ih => exact ih.append (.tag hinside htag)
  | plain _ ht hc ho ih => exact ih.append (.plain ht hc ho)

end Leads

theorem plain_escape (s : Text) : plain (escape s) = .ok (leftOf s) := by
  have h := Leads.nil.reads.read_escape s
  rw [List.nil_append] at h
  rw [plain, h]
  show Except.ok ((leftOf s).reverse ++ []).reverse = _
  rw [List.append_nil, List.reverse_reverse]

end FieldForest.Markup
