/-
  FieldForest.Proofs.Text.LineEnds — what becomes of a text when its line ends are unified.

  Carriage returns become line feeds, and one with a line feed behind it becomes one with it. All
  else stays, so a text with unified line ends can be taken apart as the text itself.

  Proved:
  - `unifyNewlines_cons` / `unifyNewlines_return`: one code point in front.
  - `unifyNewlines_cases`: how a text begins, before and after.
  - `unifyNewlines_of_noReturn`: without carriage returns nothing changes.
-/
import FieldForest.Text.Basic

namespace FieldForest.Text

theorem unifyNewlines_cons {c : CodePoint} (h : c ≠ .char '\r') (s : Text) :
    unifyNewlines (c :: s) = c :: unifyNewlines s := by
  rw [unifyNewlines]
  · rintro rest rfl
    exact absurd rfl h
  · rintro rfl
    exact absurd rfl h

theorem unifyNewlines_of_noReturn {s : Text} (h : .char '\r' ∉ s) : s.unifyNewlines = s := by
  induction s with
  | nil => rfl
  | cons c s ih =>
    rw [List.mem_cons, not_or] at h
    rw [unifyNewlines_cons (Ne.symm h.1), ih h.2]

/-- A carriage return becomes a line feed, whatever is behind it. -/
theorem unifyNewlines_return (s : Text) : ∃ t, unifyNewlines (.char '\r' :: s) = .char '\n' :: unifyNewlines t := by
  by_cases h : ∃ t, s = .char '\n' :: t
  · obtain ⟨t, rfl⟩ := h
    exact ⟨t, rfl⟩
  · refine ⟨s, ?_⟩
    rw [unifyNewlines]
    rintro t rfl
    exact h ⟨t, rfl⟩

/-- What is no line feed stands in the text itself. -/
theorem exists_of_unifyNewlines_eq_cons {s u : Text} {c : CodePoint} (h : s.unifyNewlines = c :: u)
    (hc : c ≠ .char '\n') : ∃ t : Text, s = c :: t ∧ u = t.unifyNewlines := by
  cases s with
  | nil => cases h
  | cons d s =>
    by_cases hd : d = .char '\r'
    · subst hd
      obtain ⟨t, ht⟩ := unifyNewlines_return s
      rw [ht] at h
      cases h
      exact absurd rfl hc
    · rw [unifyNewlines_cons hd] at h
      cases h
      exact ⟨s, rfl, rfl⟩

/-- A text that does not begin with `c` does not when its line ends are unified. -/
theorem unifyNewlines_ne_cons {s : Text} {c : CodePoint} (hc : c ≠ .char '\n') (h : ∀ t, s ≠ c :: t) (t : Text) :
    s.unifyNewlines ≠ c :: t := by
  intro ht
  obtain ⟨u, hu, -⟩ := exists_of_unifyNewlines_eq_cons ht hc
  exact h u hu

theorem unifyNewlines_ne_nil {s : Text} (h : s ≠ []) : s.unifyNewlines ≠ [] := by
  cases s with
  | nil => exact absurd rfl h
  | cons c s =>
    by_cases hc : c = .char '\r'
    · subst hc
      obtain ⟨t, ht⟩ := unifyNewlines_return s
      simp [ht]
    · simp [unifyNewlines_cons hc]

theorem length_unifyNewlines_le (s : Text) : s.unifyNewlines.length ≤ s.length := by
  fun_induction unifyNewlines s with
  | case1 rest ih => simp only [List.length_cons]; omega
  | case2 rest hrest ih => simpa using ih
  | case3 c rest h₁ h₂ ih => simpa using ih
  | case4 => exact Nat.le_refl 0

/-- A text that begins with no carriage return begins as it does with its line ends unified, and
    one that does begins with a line feed then. -/
theorem unifyNewlines_cases (s : Text) :
    s = [] ∨ (∃ c, ∃ t : Text, c ≠ .char '\r' ∧ s = c :: t ∧ s.unifyNewlines = c :: t.unifyNewlines) ∨
      ∃ t u, s = .char '\r' :: t ∧ s.unifyNewlines = .char '\n' :: u := by
  cases s with
  | nil => exact .inl rfl
  | cons c t =>
    by_cases hc : c = .char '\r'
    · subst hc
      obtain ⟨u, hu⟩ := unifyNewlines_return t
      exact .inr (.inr ⟨t, _, rfl, hu⟩)
    · exact .inr (.inl ⟨c, t, hc, rfl, unifyNewlines_cons hc t⟩)

theorem spanDigits_unifyNewlines (s : Text) :
    s.unifyNewlines.spanDigits = (s.spanDigits.1, s.spanDigits.2.unifyNewlines) := by
  induction s with
  | nil => rfl
  | cons c s ih =>
    by_cases hc : c = .char '\r'
    · subst hc
      obtain ⟨t, ht⟩ := unifyNewlines_return s
      have hreturn : spanDigits (.char '\r' :: s) = ([], .char '\r' :: s) := rfl
      rw [hreturn, ht]
      rfl
    · rw [unifyNewlines_cons hc]
      cases c with
      | loneSurrogate n => rw [spanDigits, spanDigits, unifyNewlines_cons hc] <;> simp
      | char d =>
        by_cases hd : d.isDigit = true
        · simp only [spanDigits, if_pos hd, ih]
        · simp only [spanDigits, if_neg hd, unifyNewlines_cons hc]

end FieldForest.Text
