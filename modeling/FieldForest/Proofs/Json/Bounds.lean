/-
  FieldForest.Proofs.Json.Bounds — how many elements are read is bounded by the text alone.

  A reader that gives something has taken something off its text, so an array has fewer elements
  than its text has code points. The bound on elements is there for the recursion, and every bound
  that is larger than the text gives the same.

  Proved:
  - `shortens_readValue` / `shortens_readMember`: a value and a member take something.
  - `readItems_eq_of_bounds`: items are read alike with any two bounds larger than the text.
  - `readValue_eq_of_bounds`: so is every value.
-/
import FieldForest.Proofs.Json.Consumption
import FieldForest.Trace

namespace FieldForest.Json

variable {limits : Limits}

/-! ## What begins no string, array or object -/

theorem readScalar_of_no_quote {s : Text} (h : ∀ t, s ≠ .char '"' :: t) :
    readScalar limits s =
      match (words limits.nanMark).findSome? fun w => (w.1.isPrefixOf? s).map fun rest => (w.2, rest) with
      | some found => .ok found
      | none => readNumber limits s := by
  unfold readScalar
  split
  · exact absurd rfl (h _)
  · rfl

theorem readValue_of_no_bracket {bound depth : Nat} {s : Text} (harray : ∀ t, s ≠ .char '[' :: t)
    (hobject : ∀ t, s ≠ .char '{' :: t) : readValue limits bound depth s = readScalar limits s := by
  cases depth with
  | zero =>
    unfold readValue
    split
    · exact absurd rfl (harray _)
    · exact absurd rfl (hobject _)
    · rfl
  | succ depth =>
    unfold readValue
    split
    · exact absurd rfl (harray _)
    · exact absurd rfl (hobject _)
    · rfl

/-! ## Readers that take something -/

theorem Taken.length_le {α : Type} {most : Nat} {s rest : Text} {a : α} (h : Taken most s (.ok (a, rest))) :
    rest.length ≤ s.length := by
  cases h with
  | ok hrest => exact hrest.length_le

/-- A reader that gives something has taken something. -/
def Shortens {α : Type} (read : Reader α) : Prop :=
  ∀ s a rest, read s = .ok (a, rest) → rest.length < s.length

theorem integerPart?_length_lt {s rest : Text} {ds : List Char} (h : integerPart? s = some (ds, rest)) :
    rest.length < s.length := by
  have hlength : s.length = ds.length + rest.length := by
    rw [(integerPart?_split h).1, List.length_append, Text.ofChars, List.length_map]
  have hne : ds ≠ [] := by
    unfold integerPart? at h
    split at h
    · cases h
      exact List.cons_ne_nil _ _
    · split at h
      · cases h
      · rename_i found hfound
        have hspan := Option.some.inj h
        rintro rfl
        exact hfound _ hspan
  have := List.length_pos_of_ne_nil hne
  omega

theorem length_le_signed (negative : Bool) (t : Text) : t.length ≤ (signed negative t).length :=
  (signed_suffix negative t).length_le

theorem shortens_readNumber (hplaces : limits.places = none) : Shortens (readNumber limits) := by
  intro s x rest h
  obtain ⟨negative, unsigned, rfl, hsign⟩ := exists_signed s
  refine Nat.lt_of_lt_of_le ?_ (length_le_signed negative unsigned)
  cases hi : integerPart? unsigned with
  | none =>
    rw [readNumber_of_no_digits hi hsign] at h
    cases h
  | some found =>
    obtain ⟨ds, after⟩ := found
    refine Nat.lt_of_le_of_lt ?_ (integerPart?_length_lt hi)
    rcases hf : fractionPart after with ⟨fs, behind⟩
    refine Nat.le_trans ?_ (fractionPart_suffix hf).length_le
    rw [readNumber_signed hi hf (Limits.takes_of_places hplaces _)] at h
    split_ifs at h
    · cases h
      exact Nat.le_refl _
    · cases h
      cases he : exponentPart? behind with
      | none => exact Nat.le_refl _
      | some found => exact (exponentPart?_suffix he).length_le

theorem ne_nil_of_mem_words {nanMark : Nat} {w : Text × Json} (h : w ∈ words nanMark) : w.1 ≠ [] := by
  simp only [words, List.mem_cons, List.not_mem_nil, or_false] at h
  rcases h with rfl | rfl | rfl | rfl | rfl | rfl <;> exact List.cons_ne_nil _ _

theorem shortens_readScalar (hplaces : limits.places = none) : Shortens (readScalar limits) := by
  intro s x rest h
  by_cases hquote : ∃ t, s = .char '"' :: t
  · obtain ⟨t, rfl⟩ := hquote
    obtain ⟨p, hp, hx⟩ := map_eq_ok_iff.mp h
    cases hx
    exact Nat.lt_succ_of_le (hp ▸ taken_readString 0 (.char '"' :: t) t : Taken 0 t (.ok p)).length_le
  · rw [readScalar_of_no_quote (not_exists.mp hquote)] at h
    split at h
    · rename_i found hfound
      obtain ⟨w, hw, hprefix⟩ := List.exists_of_findSome?_eq_some hfound
      obtain ⟨behind, hbehind, rfl⟩ := Option.map_eq_some_iff.mp hprefix
      cases h
      have hne : w.1 ≠ [] := ne_nil_of_mem_words hw
      rw [← List.isPrefixOf?_eq_some_iff_append_eq.mp hbehind, List.length_append]
      have := List.length_pos_of_ne_nil hne
      omega
    · exact shortens_readNumber hplaces s x rest h

theorem shortens_readValue (hplaces : limits.places = none) (bound depth : Nat) :
    Shortens (readValue limits bound depth) := by
  intro s x rest h
  by_cases harray : ∃ t, s = .char '[' :: t
  · obtain ⟨t, rfl⟩ := harray
    cases depth with
    | zero => cases h
    | succ depth =>
      obtain ⟨p, hp, hx⟩ := map_eq_ok_iff.mp h
      cases hx
      have htaken : Taken limits.intDigits t (readBracketed ']' (readValue limits bound depth) bound t) :=
        taken_readBracketed (taken_readValue hplaces bound depth) bound t
      rw [hp] at htaken
      exact Nat.lt_succ_of_le htaken.length_le
  by_cases hobject : ∃ t, s = .char '{' :: t
  · obtain ⟨t, rfl⟩ := hobject
    cases depth with
    | zero => cases h
    | succ depth =>
      obtain ⟨p, hp, hx⟩ := map_eq_ok_iff.mp h
      cases hx
      have htaken : Taken limits.intDigits t (readBracketed '}' (readMember (readValue limits bound depth)) bound t) :=
        taken_readBracketed (taken_readMember (taken_readValue hplaces bound depth)) bound t
      rw [hp] at htaken
      exact Nat.lt_succ_of_le htaken.length_le
  · rw [readValue_of_no_bracket (not_exists.mp harray) (not_exists.mp hobject)] at h
    exact shortens_readScalar hplaces s x rest h

theorem shortens_readMember {item : Reader Json} (hitem : Shortens item) : Shortens (readMember item) := by
  intro s m rest h
  obtain ⟨⟨key, behind⟩, hkey, h⟩ := bind_eq_ok_iff.mp h
  obtain ⟨⟨x, after⟩, hx, h⟩ := bind_eq_ok_iff.mp h
  cases h
  exact Nat.lt_of_lt_of_le (hitem _ _ _ hx) (hkey ▸ taken_readKey 0 s : Taken 0 s (.ok (key, behind))).length_le

theorem length_skipSpace_le (s : Text) : (skipSpace s).length ≤ s.length := (skipSpace_suffix s).length_le

section

variable {α : Type} {close : Char} {item item' : Reader α} {s : Text} {fuel fuel' : Nat}

/-- Readers that agree on all texts that are no longer than this one, read the same items off it. -/
theorem readItems_eq_of_bounds (hshortens : Shortens item') (hitem : ∀ t, t.length ≤ s.length → item t = item' t)
    (hfuel : s.length < fuel) (hfuel' : s.length < fuel') :
    readItems close item fuel s = readItems close item' fuel' s := by
  induction fuel generalizing s fuel' with
  | zero => omega
  | succ fuel ih =>
    obtain ⟨fuel', rfl⟩ := Nat.exists_eq_add_of_lt (Nat.zero_lt_of_lt hfuel')
    rw [Nat.zero_add, readItems, readItems, hitem s (Nat.le_refl _)]
    cases hx : item' s with
    | error e => rfl
    | ok p =>
      obtain ⟨x, rest⟩ := p
      have hrest := hshortens s x rest hx
      have hspace := length_skipSpace_le rest
      dsimp only [bind, Except.bind]
      cases hbehind : skipSpace rest with
      | nil => rfl
      | cons c behind =>
        have hnext := length_skipSpace_le behind
        rw [hbehind, List.length_cons] at hspace
        have hmore : readItems close item fuel (skipSpace behind) = readItems close item' fuel' (skipSpace behind) :=
          ih (fun t ht => hitem t (by omega)) (by omega) (by omega)
        dsimp only
        rw [hmore]

theorem readBracketed_eq_of_bounds (hshortens : Shortens item')
    (hitem : ∀ t, t.length ≤ s.length → item t = item' t) (hfuel : s.length < fuel) (hfuel' : s.length < fuel') :
    readBracketed close item fuel s = readBracketed close item' fuel' s := by
  have hspace := length_skipSpace_le s
  have hitems : readItems close item fuel (skipSpace s) = readItems close item' fuel' (skipSpace s) :=
    readItems_eq_of_bounds hshortens (fun t ht => hitem t (Nat.le_trans ht hspace)) (Nat.lt_of_le_of_lt hspace hfuel)
      (Nat.lt_of_le_of_lt hspace hfuel')
  unfold readBracketed
  cases hfirst : skipSpace s with
  | nil =>
    rw [hfirst] at hitems
    exact hitems
  | cons c rest =>
    rw [hfirst] at hitems
    dsimp only
    rw [hitems]

end

theorem readMember_congr {item item' : Reader Json} {s : Text} (hitem : ∀ t, t.length ≤ s.length → item t = item' t) :
    readMember item s = readMember item' s := by
  unfold readMember
  have htaken := taken_readKey 0 s
  cases hkey : readKey s with
  | error e => rfl
  | ok p =>
    rw [hkey] at htaken
    dsimp only [bind, Except.bind]
    rw [hitem p.2 htaken.length_le]

/-- Every bound that is larger than the text gives the same. -/
theorem readValue_eq_of_bounds (hplaces : limits.places = none) (depth : Nat) {s : Text} {bound bound' : Nat}
    (h : s.length < bound) (h' : s.length < bound') :
    readValue limits bound depth s = readValue limits bound' depth s := by
  induction depth generalizing s with
  | zero => rfl
  | succ depth ih =>
    by_cases harray : ∃ t, s = .char '[' :: t
    · obtain ⟨t, rfl⟩ := harray
      rw [List.length_cons] at h h'
      have helements : readBracketed ']' (readValue limits bound depth) bound t =
          readBracketed ']' (readValue limits bound' depth) bound' t :=
        readBracketed_eq_of_bounds (shortens_readValue hplaces bound' depth)
          (fun u hu => ih (by omega) (by omega)) (by omega) (by omega)
      rw [readValue, readValue, helements]
    by_cases hobject : ∃ t, s = .char '{' :: t
    · obtain ⟨t, rfl⟩ := hobject
      rw [List.length_cons] at h h'
      have hmembers : readBracketed '}' (readMember (readValue limits bound depth)) bound t =
          readBracketed '}' (readMember (readValue limits bound' depth)) bound' t :=
        readBracketed_eq_of_bounds (shortens_readMember (shortens_readValue hplaces bound' depth))
          (fun u hu => readMember_congr fun v hv => ih (by omega) (by omega)) (by omega) (by omega)
      rw [readValue, readValue, hmembers]
    · rw [readValue_of_no_bracket (not_exists.mp harray) (not_exists.mp hobject),
        readValue_of_no_bracket (not_exists.mp harray) (not_exists.mp hobject)]

end FieldForest.Json
