/-
  FieldForest.Proofs.Forest.Printed — what is printed of a forest that a document declares.

  A terminal takes no half of a surrogate pair, and of the control characters it shows only line
  feeds as they are. Saved text has no others, since strings in it are escaped, so it is printed
  as it stands. A listing holds the ids and types of fields and the keys of options as they are,
  and values only between quotes; so it can be printed if no string of the document holds half
  of a surrogate pair.

  Proved:
  - `mem_shown` / `shown_eq_self`: what a terminal makes of a text.
  - `all_writeAt`: the text of a document is printed as it stands.
  - `hasLoneSurrogate_listing`: a listing can be printed, if the document can.
-/
import FieldForest.Forest.Outline
import FieldForest.Proofs.Forest.Documents
import FieldForest.Proofs.Value.Shown

namespace FieldForest

/-! ## What a terminal is given -/

namespace Console

/-- A code point that is neither dropped nor filled up. -/
def isPlain (c : CodePoint) : Bool := c == .char '\n' || decide (0x20 ≤ c.toNat)

theorem mem_expandTabs {c : CodePoint} {part t : Text} (h : c ∈ expandTabs part t) : c = .char ' ' ∨ c ∈ t := by
  fun_induction expandTabs part t with
  | case1 => cases h
  | case2 part rest ih =>
    rcases List.mem_append.mp h with h | h
    · exact .inl (List.eq_of_mem_replicate h)
    · exact (ih h).imp_right (List.mem_cons_of_mem _)
  | case3 part rest ih =>
    rcases List.mem_cons.mp h with rfl | h
    · exact .inr List.mem_cons_self
    · exact (ih h).imp_right (List.mem_cons_of_mem _)
  | case4 part d rest _ _ ih =>
    rcases List.mem_cons.mp h with rfl | h
    · exact .inr List.mem_cons_self
    · exact (ih h).imp_right (List.mem_cons_of_mem _)

/-- A terminal is given nothing but spaces that is not in the text. -/
theorem mem_shown {c : CodePoint} {t : Text} (h : c ∈ shown t) : c = .char ' ' ∨ c ∈ t :=
  (mem_expandTabs h).imp_right List.mem_of_mem_filter

theorem hasLoneSurrogate_shown {t : Text} (h : t.hasLoneSurrogate = false) : (shown t).hasLoneSurrogate = false := by
  rw [Text.hasLoneSurrogate, List.any_eq_false] at h ⊢
  intro c hc
  rcases mem_shown hc with rfl | hc
  · exact Bool.false_ne_true
  · exact h c hc

theorem expandTabs_eq_self {t : Text} (h : .char '\t' ∉ t) (part : Text) : expandTabs part t = t := by
  fun_induction expandTabs part t with
  | case1 => rfl
  | case2 => exact absurd List.mem_cons_self h
  | case3 part rest ih => rw [ih fun hmem => h (List.mem_cons_of_mem _ hmem)]
  | case4 part c rest _ _ ih => rw [ih fun hmem => h (List.mem_cons_of_mem _ hmem)]

theorem shown_eq_self {t : Text} (h : t.all isPlain = true) : shown t = t := by
  rw [List.all_eq_true] at h
  have hkept : kept t = t := by
    refine List.filter_eq_self.mpr fun c hc => ?_
    by_contra hdropped
    simp only [isDropped, Bool.not_eq_true', Bool.not_eq_false, Bool.or_eq_true, decide_eq_true_eq] at hdropped
    rcases hdropped with (((rfl | rfl) | rfl) | rfl) | rfl <;> cases h _ hc
  rw [shown, hkept]
  refine expandTabs_eq_self (fun htab => ?_) []
  cases h _ htab

end Console

/-! ## Saved text -/

namespace Json

open Console (isPlain)
open Text (isVisible)

theorem isPlain_of_le {c : CodePoint} (h : 0x20 ≤ c.toNat) : isPlain c = true := by
  rw [isPlain, decide_eq_true h, Bool.or_true]

theorem isPlain_of_visible {t : Text} (h : t.all isVisible = true) : t.all isPlain = true := by
  rw [List.all_eq_true] at h ⊢
  exact fun c hc => isPlain_of_le (Nat.le_of_lt (of_decide_eq_true (h c hc)).1)

theorem all_escaped (c : CodePoint) : (escaped c).all isPlain = true := by
  have hhex : ∀ n < 0x20, (Text.ofHex 4 n).all isPlain = true := by decide
  unfold escaped
  split
  all_goals first | rfl | skip
  split
  · rename_i hc
    rw [List.all_append, hhex _ hc]
    rfl
  · rename_i hc
    rw [List.all_cons, isPlain_of_le (Nat.le_of_not_lt hc)]
    rfl

theorem all_writeString (t : Text) : (writeString t).all isPlain = true := by
  have hbody : (t.flatMap escaped).all isPlain = true := by
    rw [List.all_flatMap, List.all_eq_true]
    exact fun c _ => all_escaped c
  rw [writeString, List.all_append, List.all_cons, hbody]
  rfl

theorem all_newline (indent : Option Nat) (level : Nat) : (newline indent level).all isPlain = true := by
  cases indent with
  | none => rfl
  | some width =>
    rw [newline, List.all_eq_true, List.forall_mem_cons]
    refine ⟨rfl, fun c hc => ?_⟩
    rw [List.eq_of_mem_replicate hc]
    rfl

theorem all_colon (indent : Option Nat) : (colon indent).all isPlain = true := by
  cases indent <;> rfl

mutual

/-- What is written for a document is printed as it stands. -/
theorem all_writeAt (indent : Option Nat) (level : Nat) : ∀ document, (writeAt indent level document).all isPlain = true
  | .null => rfl
  | .bool b => by cases b <;> rfl
  | .int n => isPlain_of_visible (visible_ofInt n)
  | .float x => by
    cases x with
    | finite negative size =>
      have htext : NumberText ⟨0, 0, none, 0⟩ _ _ :=
        numberText_writeFinite DecimalStyle.saved negative size (Limits.takes_of_places rfl _)
      exact isPlain_of_visible (visible_numberText htext)
    | _ => rfl
  | .text t => all_writeString t
  | .array [] => rfl
  | .array (x :: xs) => by
    have hopen : List.all ("[" : Text) isPlain = true := rfl
    have hclose : List.all ("]" : Text) isPlain = true := rfl
    rw [writeAt]
    simp only [List.all_append, all_newline, all_writeAt indent (level + 1) x, all_writeElements indent (level + 1) xs,
      hopen, hclose, Bool.and_true]
  | .object [] => rfl
  | .object ((key, x) :: members) => by
    have hopen (t : Text) : List.all (.char '{' :: t) isPlain = t.all isPlain := rfl
    have hclose : List.all [.char '}'] isPlain = true := rfl
    rw [writeAt]
    simp only [List.cons_append, hopen, List.all_append, all_newline, all_colon, all_writeString,
      all_writeAt indent (level + 1) x, all_writeMembers indent (level + 1) members, hclose, Bool.and_true]

theorem all_writeElements (indent : Option Nat) (level : Nat) :
    ∀ elements, (writeElements indent level elements).all isPlain = true
  | [] => rfl
  | x :: xs => by
    have hcomma : List.all ("," : Text) isPlain = true := rfl
    rw [writeElements]
    simp only [List.all_append, all_newline, all_writeAt indent level x, all_writeElements indent level xs, hcomma,
      Bool.and_true]

theorem all_writeMembers (indent : Option Nat) (level : Nat) :
    ∀ members, (writeMembers indent level members).all isPlain = true
  | [] => rfl
  | (key, x) :: members => by
    have hcomma : List.all ("," : Text) isPlain = true := rfl
    rw [writeMembers]
    simp only [List.all_append, all_newline, all_colon, all_writeString, all_writeAt indent level x,
      all_writeMembers indent level members, hcomma, Bool.and_true]

end

theorem shown_write (indent : Option Nat) (document : Json) :
    Console.shown (document.write indent) = document.write indent :=
  Console.shown_eq_self (all_writeAt indent 0 document)

end Json

/-! ## Listings -/

namespace Text

open Json (hasLoneSurrogate_append hasLoneSurrogate_ofChars)

theorem hasLoneSurrogate_intercalate {between : Text} {parts : List Text} (hbetween : between.hasLoneSurrogate = false)
    (h : ∀ t ∈ parts, t.hasLoneSurrogate = false) : Text.hasLoneSurrogate (List.intercalate between parts) = false := by
  simp only [hasLoneSurrogate, List.any_eq_false] at hbetween h ⊢
  intro c hc
  rcases mem_of_mem_intercalate hc with hc | ⟨t, ht, hc⟩
  · exact hbetween c hc
  · exact h t ht c hc

theorem hasLoneSurrogate_ofString (s : String) : (ofString s).hasLoneSurrogate = false :=
  hasLoneSurrogate_ofChars s.toList

theorem hasLoneSurrogate_ofNat (n : Nat) : (ofNat n).hasLoneSurrogate = false := hasLoneSurrogate_ofChars _

theorem hasLoneSurrogate_replicate (n : Nat) (c : Char) :
    hasLoneSurrogate (List.replicate n (.char c)) = false := by
  rw [hasLoneSurrogate, List.any_eq_false]
  intro d hd
  rw [List.eq_of_mem_replicate hd]
  exact Bool.false_ne_true

theorem hasLoneSurrogate_subset {s t : Text} (hsub : s ⊆ t) (h : t.hasLoneSurrogate = false) :
    s.hasLoneSurrogate = false := by
  rw [hasLoneSurrogate, List.any_eq_false] at h ⊢
  exact fun c hc => h c (hsub hc)

theorem hasLoneSurrogate_trimEnd {t : Text} (h : t.hasLoneSurrogate = false) :
    (trimEnd t).hasLoneSurrogate = false := by
  refine hasLoneSurrogate_subset (fun c hc => ?_) h
  have hmem : c ∈ t.reverse.dropWhile isBlankOrSeparator := List.mem_reverse.mp hc
  exact List.mem_reverse.mp ((List.dropWhile_sublist _).subset hmem)

theorem hasLoneSurrogate_padEnd {width : Nat} {t : Text} (h : t.hasLoneSurrogate = false) :
    (padEnd width t).hasLoneSurrogate = false := by
  rw [padEnd, List.rightpad, hasLoneSurrogate_append, h, hasLoneSurrogate_replicate]
  rfl

theorem hasLoneSurrogate_commaSeparated {parts : List Text} (h : ∀ t ∈ parts, t.hasLoneSurrogate = false) :
    (commaSeparated parts).hasLoneSurrogate = false :=
  hasLoneSurrogate_intercalate (hasLoneSurrogate_ofString _) h

end Text

open Text
open Json (hasLoneSurrogate_append)

namespace Forest

/-- A row that can be printed. -/
def IsPrinted (r : Row) : Prop :=
  r.name.hasLoneSurrogate = false ∧ r.type.hasLoneSurrogate = false ∧ r.flag.hasLoneSurrogate = false ∧
    r.options.hasLoneSurrogate = false

theorem hasLoneSurrogate_line {r : Row} (h : IsPrinted r) : (Row.line r).hasLoneSurrogate = false := by
  obtain ⟨hname, htype, hflag, hoptions⟩ := h
  refine hasLoneSurrogate_trimEnd ?_
  simp only [hasLoneSurrogate_append, hasLoneSurrogate_padEnd hname, hasLoneSurrogate_padEnd htype,
    hasLoneSurrogate_padEnd hflag, hoptions, hasLoneSurrogate_ofString, Bool.or_false]

theorem isPrinted_row (depth : Nat) {f : Field} (h : f.Documented fun x => x.hasLoneSurrogate = false) :
    IsPrinted (f.row depth) := by
  cases h with
  | @mk id type members required fields hid htype hmembers _ _ =>
    refine ⟨?_, htype, ?_, hasLoneSurrogate_commaSeparated ?_⟩
    · show Text.hasLoneSurrogate (List.replicate (2 * depth) (.char ' ') ++ id) = false
      rw [hasLoneSurrogate_append, hasLoneSurrogate_replicate]
      exact hid
    · show (Field.flagWord required).hasLoneSurrogate = false
      cases required <;> rfl
    · have hkeys := Json.anyLoneSurrogateIn_eq_false_iff.mp hmembers
      have hsettings : (Field.mk id type (optionsOfMembers members) required [] fields).settings =
          optionsOfMembers members := List.append_nil _
      rw [hsettings, optionsOfMembers, List.map_map, List.forall_mem_map]
      intro m hm
      show Text.hasLoneSurrogate (m.1 ++ "=" ++ (Value.ofJson m.2).display) = false
      rw [hasLoneSurrogate_append, hasLoneSurrogate_append, (hkeys m hm).1,
        hasLoneSurrogate_of_printable (Value.printable_display _)]
      rfl

mutual

theorem isPrinted_fieldRows (depth : Nat) : ∀ {f : Field}, f.Documented (fun x => x.hasLoneSurrogate = false) →
    ∀ r ∈ fieldRows depth f, IsPrinted r
  | .mk id type leading required trailing fields, h => by
    have hfields : ∀ f ∈ fields, f.Documented fun x => x.hasLoneSurrogate = false := by
      cases h with
      | mk _ _ _ _ hfields => exact hfields
    rw [fieldRows, List.forall_mem_cons]
    exact ⟨isPrinted_row depth h, isPrinted_rowsAt (depth + 1) hfields⟩

theorem isPrinted_rowsAt (depth : Nat) : ∀ {fs : List Field},
    (∀ f ∈ fs, f.Documented fun x => x.hasLoneSurrogate = false) → ∀ r ∈ rowsAt depth fs, IsPrinted r
  | [], _ => by
    rw [rowsAt]
    exact List.forall_mem_nil _
  | f :: fs, h => by
    obtain ⟨hf, hfs⟩ := List.forall_mem_cons.mp h
    rw [rowsAt, List.forall_mem_append]
    exact ⟨isPrinted_fieldRows depth hf, isPrinted_rowsAt depth hfs⟩

end

/-- A listing can be printed if its title can, and the documents in the forest hold no half of a
    surrogate pair. -/
theorem hasLoneSurrogate_listing {title : Text} {forest : List Field} (htitle : title.hasLoneSurrogate = false)
    (h : ∀ f ∈ forest, f.Documented fun x => x.hasLoneSurrogate = false) :
    (listing title forest).hasLoneSurrogate = false := by
  refine hasLoneSurrogate_intercalate (hasLoneSurrogate_ofString _) ?_
  simp only [List.forall_mem_cons, List.forall_mem_map]
  exact ⟨htitle, hasLoneSurrogate_replicate 80 '=', rfl, fun r hr => hasLoneSurrogate_line (isPrinted_rowsAt 0 h r hr)⟩

end Forest

end FieldForest
