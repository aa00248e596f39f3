/-
  FieldForest.Proofs.Settings.PlainLines — a file of bindings that holds nothing but plain lines.

  A plain line is a name, an equals sign and a value that stands for itself: it has no quotes, no
  comment, no reference, and no blanks at its ends. Such a file binds its names to its values, and
  what it says of a setting is in force if no variable says something else.

  Proved:
  - `entry_plain`: what is read of a plain line, whatever stands behind it.
  - `read_plainLines`: what a file of plain lines binds.
  - `inForce_of_plainLine`: the setting that it puts in force.
-/
import FieldForest.Proofs.Settings.InForce
import FieldForest.Proofs.Text.LineEnds
import Mathlib.Data.List.Basic
import Mathlib.Data.List.TakeDrop

namespace FieldForest

open Text (isBlankOrSeparator)

namespace Bindings

/-! ## A plain line -/

theorem span_append_cons {p : CodePoint → Bool} {s : Text} {c : CodePoint} (hs : ∀ d ∈ s, p d = true)
    (hc : p c = false) (rest : Text) : (s ++ c :: rest).span p = (s, c :: rest) := by
  have hnot : ¬ p c = true := Bool.not_eq_true _ ▸ hc
  rw [List.span_eq_takeWhile_dropWhile, List.takeWhile_append_of_pos hs, List.dropWhile_append_of_pos hs,
    List.takeWhile_cons_of_neg hnot, List.dropWhile_cons_of_neg hnot, List.append_nil]

/-- A name and a value that can be read off a line as they are. -/
structure IsPlain (b : Text × Text) : Prop where
  name_ne_nil : b.1 ≠ []
  name : ∀ c ∈ b.1,
    c ≠ .char '=' ∧ c ≠ .char '#' ∧ c ≠ .char '\'' ∧ c ≠ .char '\uFEFF' ∧ isBlankOrSeparator c = false
  value : ∀ c ∈ b.2, c ≠ .char '#' ∧ c ≠ .char '$' ∧ c ≠ .char '\'' ∧ c ≠ .char '"' ∧ isLineEnd c = false
  first : ∀ c ∈ b.2.head?, isBlankOrSeparator c = false
  last : ∀ c ∈ b.2.getLast?, isBlankOrSeparator c = false

def plainLine (b : Text × Text) : Text := b.1 ++ .char '=' :: (b.2 ++ [.char '\n'])

def plainFile (lines : List (Text × Text)) : Text := lines.flatMap plainLine

theorem beforeComment_of_noSign {s : Text} (h : .char '#' ∉ s) : beforeComment s = s := by
  induction s with
  | nil => rfl
  | cons c rest ih =>
    rw [List.mem_cons, not_or] at h
    rw [beforeComment, ih h.2, if_neg]
    rintro ⟨-, hhead⟩
    have hmem := (List.dropWhile_suffix _).mem (List.mem_of_head? hhead)
    exact h.2 hmem

theorem resolve_of_noDollar (bound : Text → Option (Option Text)) (fuel : Nat) {s : Text} (h : .char '$' ∉ s) :
    resolve bound fuel s = s := by
  fun_induction resolve bound fuel s with
  | case1 s => rfl
  | case2 fuel => rfl
  | case3 => exact absurd List.mem_cons_self h
  | case4 => exact absurd List.mem_cons_self h
  | case5 fuel c rest _ ih => rw [ih fun hrest => h (List.mem_cons_of_mem _ hrest)]

section

variable {b : Text × Text} (hb : IsPlain b)

include hb

theorem skipExport_plain (rest : Text) : skipExport (b.1 ++ .char '=' :: rest) = b.1 ++ .char '=' :: rest := by
  unfold skipExport
  split
  · rename_i c after hprefix
    have hsplit : b.1 ++ .char '=' :: rest = ("export" : Text) ++ c :: after :=
      (List.isPrefixOf?_eq_some_iff_append_eq.mp hprefix).symm
    -- behind `export` stands the equals sign, or the name goes on
    have hc : c = .char '=' ∨ c ∈ b.1 := by
      obtain ⟨more, hmore, hequals⟩ | ⟨more, hname, hmore⟩ := List.append_eq_append_iff.mp hsplit
      · cases more with
        | nil => exact .inl (List.cons.inj hequals).1.symm
        | cons d more =>
          obtain rfl := (List.cons.inj hequals).1
          have hmem : CodePoint.char '=' ∈ ("export" : Text) :=
            hmore ▸ List.mem_append_right _ List.mem_cons_self
          exact absurd hmem (by decide)
      · cases more with
        | nil => exact .inl (List.cons.inj hmore).1
        | cons d more =>
          obtain rfl := (List.cons.inj hmore).1
          exact .inr (hname ▸ List.mem_append_right _ List.mem_cons_self)
    have hinline : isInlineBlank c = false := by
      obtain rfl | hc := hc
      · decide
      · simp [isInlineBlank, (hb.name c hc).2.2.2.2]
    rw [hinline]
    exact if_neg Bool.false_ne_true
  · rfl

theorem name?_plain (rest : Text) : name? (b.1 ++ .char '=' :: rest) = some (some b.1, .char '=' :: rest) := by
  have hspan : (b.1 ++ .char '=' :: rest).span (fun c => c != .char '=' && c != .char '#' && !isBlankOrSeparator c) =
      (b.1, .char '=' :: rest) := by
    refine span_append_cons (fun d hd => ?_) (by simp) rest
    obtain ⟨hequals, hsign, -, -, hblank⟩ := hb.name d hd
    simp [hequals, hsign, hblank]
  cases hname : b.1 with
  | nil => exact absurd hname hb.name_ne_nil
  | cons c name =>
    obtain ⟨-, hsign, hquote, -, -⟩ := hb.name c (hname ▸ List.mem_cons_self)
    rw [hname] at hspan
    rw [List.cons_append] at hspan ⊢
    unfold name?
    split
    · rename_i h
      exact absurd (List.cons.inj h).1 hsign
    · rename_i h
      exact absurd (List.cons.inj h).1 hquote
    · rw [hspan]

theorem value?_plain (rest : Text) : value? (b.2 ++ .char '\n' :: rest) = some (b.2, .char '\n' :: rest) := by
  have hline : ∀ c ∈ b.2, (!isLineEnd c) = true := fun c hc => by simp [(hb.value c hc).2.2.2.2]
  have hsign : .char '#' ∉ b.2 := fun h => (hb.value _ h).1 rfl
  have htake : (b.2 ++ .char '\n' :: rest).takeWhile (!isLineEnd ·) = b.2 := by
    rw [List.takeWhile_append_of_pos hline, List.takeWhile_cons_of_neg (by decide), List.append_nil]
  have hdrop : (b.2 ++ .char '\n' :: rest).dropWhile (!isLineEnd ·) = .char '\n' :: rest := by
    rw [List.dropWhile_append_of_pos hline, List.dropWhile_cons_of_neg (by decide)]
  have hquote (quote : Char) (h : quote = '\'' ∨ quote = '"') (after : Text) :
      b.2 ++ .char '\n' :: rest ≠ .char quote :: after := by
    intro heq
    cases hvalue : b.2 with
    | nil =>
      rw [hvalue] at heq
      obtain rfl | rfl := h <;> cases heq
    | cons c value =>
      rw [hvalue] at heq
      obtain ⟨-, -, hsingle, hdouble, -⟩ := hb.value c (hvalue ▸ List.mem_cons_self)
      obtain rfl := (List.cons.inj heq).1
      obtain rfl | rfl := h
      · exact hsingle rfl
      · exact hdouble rfl
  unfold value?
  split
  · rename_i after h
    exact absurd h (hquote '\'' (.inl rfl) after)
  · rename_i after h
    exact absurd h (hquote '"' (.inr rfl) after)
  · rw [htake, hdrop, beforeComment_of_noSign hsign, Text.trimEnd_of_last hb.last]

theorem skipInline_plain (rest : Text) : skipInline (b.2 ++ .char '\n' :: rest) = b.2 ++ .char '\n' :: rest := by
  unfold skipInline
  cases hvalue : b.2 with
  | nil => exact List.dropWhile_cons_of_neg (by decide)
  | cons c value =>
    have hfirst : isBlankOrSeparator c = false := hb.first c (by rw [hvalue]; rfl)
    exact List.dropWhile_cons_of_neg (by simp [isInlineBlank, hfirst])

/-- A plain line is read as what it binds. -/
theorem entry_plain (rest : Text) : entry (plainLine b ++ rest) = (.binding (b.1, some b.2), rest) := by
  have hline : plainLine b ++ rest = b.1 ++ .char '=' :: (b.2 ++ .char '\n' :: rest) := by
    simp only [plainLine, List.append_assoc, List.cons_append, List.nil_append]
  have hequals : skipInline (.char '=' :: (b.2 ++ .char '\n' :: rest)) = .char '=' :: (b.2 ++ .char '\n' :: rest) :=
    List.dropWhile_cons_of_neg (by decide)
  rw [hline]
  simp only [entry, skipExport_plain hb, name?_plain hb, hequals, skipInline_plain hb, value?_plain hb]
  rfl

end

/-! ## A file of plain lines -/

variable {lines : List (Text × Text)} (hlines : ∀ b ∈ lines, IsPlain b)

include hlines

/-- No blanks stand in front of a line. -/
theorem dropWhile_plainFile : (plainFile lines).dropWhile isBlankOrSeparator = plainFile lines := by
  cases lines with
  | nil => rfl
  | cons b lines =>
    have hb := hlines b List.mem_cons_self
    cases hname : b.1 with
    | nil => exact absurd hname hb.name_ne_nil
    | cons c name =>
      have hc : isBlankOrSeparator c = false := (hb.name c (hname ▸ List.mem_cons_self)).2.2.2.2
      have hfront : plainFile (b :: lines) =
          c :: (name ++ .char '=' :: (b.2 ++ [.char '\n']) ++ plainFile lines) := by
        rw [plainFile, List.flatMap_cons, plainLine, hname]
        rfl
      rw [hfront]
      exact List.dropWhile_cons_of_neg (by simp [hc])

/-- The entries of a file of plain lines are what the lines bind. -/
theorem entries_plainFile {fuel : Nat} (hfuel : lines.length < fuel) :
    (entries fuel (plainFile lines)).map (·.2) = lines.map fun b => .binding (b.1, some b.2) := by
  induction lines generalizing fuel with
  | nil =>
    cases fuel with
    | zero => cases hfuel
    | succ fuel => rfl
  | cons b lines ih =>
    cases fuel with
    | zero => cases hfuel
    | succ fuel =>
      have hfront := dropWhile_plainFile hlines
      obtain ⟨hb, hlines⟩ := List.forall_mem_cons.mp hlines
      have hentry : entry (plainFile (b :: lines)) = (.binding (b.1, some b.2), plainFile lines) :=
        entry_plain hb (plainFile lines)
      have hne : plainFile (b :: lines) ≠ [] := by
        simp [plainFile, plainLine]
      have hrest := ih hlines (Nat.lt_of_succ_lt_succ hfuel)
      unfold entries
      rw [hfront]
      split
      · rename_i hnil
        exact absurd hnil hne
      · rw [hentry, List.map_cons, List.map_cons, hrest]

theorem noReturn_plainFile : .char '\r' ∉ plainFile lines := by
  intro h
  obtain ⟨b, hb, hmem⟩ := List.mem_flatMap.mp h
  have hplain := hlines b hb
  simp only [plainLine, List.mem_append, List.mem_cons, List.not_mem_nil, or_false] at hmem
  rcases hmem with hname | hequals | hvalue | hfeed
  · exact absurd (hplain.name _ hname).2.2.2.2 (by decide)
  · exact absurd hequals (by decide)
  · exact absurd (hplain.value _ hvalue).2.2.2.2 (by decide)
  · exact absurd hfeed (by decide)

theorem dropMark_plainFile : dropMark (plainFile lines) = plainFile lines := by
  unfold dropMark
  split
  · rename_i rest hfile
    cases lines with
    | nil => cases hfile
    | cons b lines =>
      have hb := hlines b List.mem_cons_self
      cases hname : b.1 with
      | nil => exact absurd hname hb.name_ne_nil
      | cons c name =>
        rw [plainFile, List.flatMap_cons, plainLine, hname] at hfile
        have hmark := (hb.name c (hname ▸ List.mem_cons_self)).2.2.2.1
        exact absurd (List.cons.inj hfile).1 hmark
  · rfl

omit hlines in
theorem length_le_plainFile (lines : List (Text × Text)) : lines.length ≤ (plainFile lines).length := by
  induction lines with
  | nil => exact Nat.le_refl _
  | cons b lines ih =>
    have hline : 1 ≤ (plainLine b).length := by simp [plainLine]; omega
    have hfile : (plainFile (b :: lines)).length = (plainLine b).length + (plainFile lines).length := by
      rw [plainFile, List.flatMap_cons, List.length_append]
      rfl
    rw [List.length_cons, hfile]
    omega

theorem entriesOf_plainFile :
    (entriesOf (plainFile lines)).filterMap (·.2.binding?) = lines.map fun b => (b.1, some b.2) := by
  have hentries : (entriesOf (plainFile lines)).map (·.2) = lines.map fun b => .binding (b.1, some b.2) := by
    unfold entriesOf
    rw [dropMark_plainFile hlines, Text.unifyNewlines_of_noReturn (noReturn_plainFile hlines)]
    exact entries_plainFile hlines (Nat.lt_succ_of_le (length_le_plainFile lines))
  calc (entriesOf (plainFile lines)).filterMap (·.2.binding?)
      = ((entriesOf (plainFile lines)).map (·.2)).filterMap Entry.binding? := by
        rw [List.filterMap_map]
        rfl
    _ = lines.map fun b => (b.1, some b.2) := by
        rw [hentries, List.filterMap_map, ← List.filterMap_eq_map]
        rfl

omit hlines in
theorem put_of_new {b : Binding} {found : List Binding} (h : ∀ c ∈ found, c.1 ≠ b.1) : put b found = found ++ [b] := by
  induction found with
  | nil => rfl
  | cons c found ih =>
    obtain ⟨hc, hfound⟩ := List.forall_mem_cons.mp h
    rw [put, if_neg hc, ih hfound, List.cons_append]

/-- Values without references stay as they are, and new names come to the end. -/
theorem resolveAll_plain (around : List (Text × Text)) {found : List Binding}
    (hnew : ∀ b ∈ lines, ∀ c ∈ found, c.1 ≠ b.1) (hdistinct : (lines.map (·.1)).Nodup) :
    resolveAll around found (lines.map fun b => (b.1, some b.2)) = found ++ lines.map fun b => (b.1, some b.2) := by
  induction lines generalizing found with
  | nil => exact (List.append_nil _).symm
  | cons b lines ih =>
    obtain ⟨hb, hlines⟩ := List.forall_mem_cons.mp hlines
    obtain ⟨hbnew, hnew⟩ := List.forall_mem_cons.mp hnew
    obtain ⟨hname, hdistinct⟩ := List.nodup_cons.mp hdistinct
    have hdollar : .char '$' ∉ b.2 := fun h => (hb.value _ h).2.1 rfl
    rw [List.map_cons, resolveAll, Option.map_some, resolve_of_noDollar _ _ hdollar, put_of_new hbnew]
    have hnext : ∀ d ∈ lines, ∀ c ∈ found ++ [(b.1, some b.2)], c.1 ≠ d.1 := by
      intro d hd c hc
      rcases List.mem_append.mp hc with hc | hc
      · exact hnew d hd c hc
      · rw [List.mem_singleton.mp hc]
        intro heq
        have hmem : d.1 ∈ lines.map (·.1) := List.mem_map_of_mem hd
        rw [← heq] at hmem
        exact hname hmem
    rw [ih hlines hnext hdistinct, List.append_assoc]
    rfl

/-- A file of plain lines binds the names on them to the values. -/
theorem read_plainFile (around : List (Text × Text)) (hdistinct : (lines.map (·.1)).Nodup) :
    read around (plainFile lines) = lines.map fun b => (b.1, some b.2) := by
  unfold read
  rw [entriesOf_plainFile hlines]
  exact resolveAll_plain hlines around (fun _ _ _ hc => absurd hc List.not_mem_nil) hdistinct

end Bindings

/-- What a plain line says of a setting is in force, if no variable and no line behind it do. -/
theorem Settings.inForce_of_plainLine {environment before after : List (Text × Text)} {b : Text × Text}
    {name : SettingName} (hlines : ∀ c ∈ before ++ b :: after, Bindings.IsPlain c)
    (hdistinct : ((before ++ b :: after).map (·.1)).Nodup)
    (hvariables : ∀ v ∈ environment, v.1.lower ≠ variableName name) (hname : b.1.lower = variableName name)
    (hafter : ∀ c ∈ after, c.1.lower ≠ variableName name) :
    InForce ⟨environment, some (Bindings.plainFile (before ++ b :: after))⟩ name (some b.2) := by
  have hread := Bindings.read_plainFile hlines environment hdistinct
  rw [List.map_append, List.map_cons] at hread
  exact @InForce.fromBinding _ name _ _ _ (b.1, some b.2) hvariables rfl hread hname (List.forall_mem_map.mpr hafter)

end FieldForest
