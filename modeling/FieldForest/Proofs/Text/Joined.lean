/-
  FieldForest.Proofs.Text.Joined — texts put together, and taken apart again.

  Texts are joined with something between them, and a joined text is taken apart at a code point.
  Where what stands between them is this code point alone, the parts are those of the texts
  one behind the other, whatever the texts hold. So none of the parts reaches over two texts, and
  there are as many parts as texts exactly if the code point stands in none of them.

  Proved:
  - `mem_intercalate` / `mem_of_mem_intercalate` / `mem_intercalate_iff`: what stands in joined texts.
  - `endsIn_append` / `endsIn_intercalate`: what they end in.
  - `splitOn_intercalate_eq_flatMap`: the parts of joined texts.
  - `length_flatMap_splitOn_eq_iff`: when there are as many parts as texts.
-/
import FieldForest.Text.Basic

namespace FieldForest.Text

variable {between part : Text} {parts : List Text} {c : CodePoint}

/-! ## What stands in joined texts -/

theorem mem_intercalate (hpart : part ∈ parts) (hc : c ∈ part) : c ∈ List.intercalate between parts := by
  induction parts with
  | nil => cases hpart
  | cons t rest ih =>
    cases rest with
    | nil =>
      rw [List.mem_singleton] at hpart
      subst hpart
      simpa [List.intercalate] using hc
    | cons u rest =>
      rw [List.intercalate_cons_cons, List.mem_append, List.mem_append]
      rcases List.mem_cons.mp hpart with rfl | hpart
      · exact .inl (.inl hc)
      · exact .inr (ih hpart)

theorem mem_of_mem_intercalate (h : c ∈ List.intercalate between parts) : c ∈ between ∨ ∃ t ∈ parts, c ∈ t := by
  induction parts with
  | nil => cases h
  | cons t rest ih =>
    cases rest with
    | nil => exact .inr ⟨t, List.mem_singleton_self t, by simpa [List.intercalate] using h⟩
    | cons u rest =>
      rw [List.intercalate_cons_cons, List.mem_append, List.mem_append] at h
      rcases h with (ht | hbetween) | hrest
      · exact .inr ⟨t, List.mem_cons_self, ht⟩
      · exact .inl hbetween
      · exact (ih hrest).imp_right fun ⟨v, hv, hc⟩ => ⟨v, List.mem_cons_of_mem _ hv, hc⟩

theorem mem_intercalate_iff (hbetween : c ∉ between) : c ∈ List.intercalate between parts ↔ ∃ t ∈ parts, c ∈ t := by
  constructor
  · intro h
    exact (mem_of_mem_intercalate h).resolve_left hbetween
  · rintro ⟨t, ht, hc⟩
    exact mem_intercalate ht hc

theorem all_intercalate {p : CodePoint → Bool} (hbetween : between.all p = true) (h : ∀ t ∈ parts, t.all p = true) :
    (List.intercalate between parts).all p = true := by
  rw [List.all_eq_true] at hbetween ⊢
  intro c hc
  rcases mem_of_mem_intercalate hc with hc | ⟨t, ht, hc⟩
  · exact hbetween c hc
  · exact List.all_eq_true.mp (h t ht) c hc

/-! ## What texts end in -/

/-- Whether a text ends in a code point of a kind; an empty one does not. -/
def endsIn (p : CodePoint → Bool) (t : Text) : Bool := t.getLast?.any p

variable {p : CodePoint → Bool}

theorem endsIn_append {t : Text} (h : t.endsIn p = true) (s : Text) : endsIn p (s ++ t) = true := by
  unfold endsIn at h ⊢
  rw [List.getLast?_append]
  cases hlast : t.getLast? with
  | none => simp [hlast] at h
  | some c => simpa [hlast] using h

theorem endsIn_intercalate (hne : parts ≠ []) (h : ∀ t ∈ parts, t.endsIn p = true) :
    endsIn p (List.intercalate between parts) = true := by
  induction parts with
  | nil => exact absurd rfl hne
  | cons t rest ih =>
    obtain ⟨ht, hrest⟩ := List.forall_mem_cons.mp h
    cases rest with
    | nil => simpa [List.intercalate] using ht
    | cons u rest =>
      rw [List.intercalate_cons_cons]
      exact endsIn_append (ih (List.cons_ne_nil _ _) hrest) _

theorem getLast?_ne_of_endsIn {t : Text} (h : t.endsIn p = true) (hc : p c = false) : t.getLast? ≠ some c := by
  intro hlast
  rw [endsIn, hlast, Option.any_some, hc] at h
  cases h

/-! ## Joined texts taken apart -/

/-- Texts that are joined with one code point and taken apart at it give the parts of each. -/
theorem splitOn_intercalate_eq_flatMap (c : CodePoint) (hne : parts ≠ []) :
    (List.intercalate [c] parts).splitOn c = parts.flatMap (List.splitOn c) := by
  induction parts with
  | nil => exact absurd rfl hne
  | cons t rest ih =>
    cases rest with
    | nil => simp [List.intercalate]
    | cons u rest =>
      rw [List.intercalate_cons_cons, List.append_assoc, List.singleton_append, List.splitOn_append_cons_self,
        ih (List.cons_ne_nil _ _), ← List.flatMap_cons]

theorem length_splitOn_eq_one_iff {t : Text} : (t.splitOn c).length = 1 ↔ c ∉ t := by
  constructor
  · intro h hc
    obtain ⟨front, rest, rfl⟩ := List.append_of_mem hc
    have hfront := List.length_pos_iff.mpr (List.splitOn_ne_nil c front)
    have hrest := List.length_pos_iff.mpr (List.splitOn_ne_nil c rest)
    rw [List.splitOn_append_cons_self, List.length_append] at h
    omega
  · intro hc
    rw [List.splitOn_eq_singleton hc, List.length_singleton]

theorem length_le_flatMap_splitOn (c : CodePoint) (parts : List Text) :
    parts.length ≤ (parts.flatMap (List.splitOn c)).length := by
  induction parts with
  | nil => exact Nat.le_refl 0
  | cons t rest ih =>
    have ht := List.length_pos_iff.mpr (List.splitOn_ne_nil c t)
    rw [List.flatMap_cons, List.length_append, List.length_cons]
    omega

theorem length_flatMap_splitOn_eq_iff :
    (parts.flatMap (List.splitOn c)).length = parts.length ↔ ∀ t ∈ parts, c ∉ t := by
  induction parts with
  | nil => simp
  | cons t rest ih =>
    have ht := List.length_pos_iff.mpr (List.splitOn_ne_nil c t)
    have hrest := length_le_flatMap_splitOn c rest
    rw [List.flatMap_cons, List.length_append, List.length_cons, List.forall_mem_cons, ← ih,
      ← length_splitOn_eq_one_iff]
    omega

/-- There are as many parts as texts exactly if the code point stands in none of the texts. -/
theorem length_splitOn_intercalate_eq_iff (hne : parts ≠ []) :
    ((List.intercalate [c] parts).splitOn c).length = parts.length ↔ ∀ t ∈ parts, c ∉ t := by
  rw [splitOn_intercalate_eq_flatMap c hne, length_flatMap_splitOn_eq_iff]

/-- Then, and only then, the parts are the texts. -/
theorem splitOn_intercalate_eq_iff (hne : parts ≠ []) :
    (List.intercalate [c] parts).splitOn c = parts ↔ ∀ t ∈ parts, c ∉ t := by
  constructor
  · intro h
    exact (length_splitOn_intercalate_eq_iff hne).mp (congrArg List.length h)
  · intro h
    exact List.splitOn_intercalate c h hne

end FieldForest.Text
