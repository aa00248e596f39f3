/-
  FieldForest.Proofs.Json.RoundTrip — a document is read from the text that is written for it.

  What is written for a document is one of its texts, so it is read as any other text of it.

  Proved:
  - `valueText_writeAt`: what is written for a readable value is a text of it, however it is indented.
  - `documentText_write` / `read_write`: so it is for a whole document, which is read back.
  - `hasLoneSurrogate_writeAt`: the text has halves of surrogate pairs exactly if the document has.
-/
import FieldForest.Proofs.Json.Strings
import FieldForest.Proofs.Json.WrittenNumbers

namespace FieldForest.Json

/-! ## Values -/

section

variable {limits : Limits} {indent : Option Nat} {level : Nat}

theorem isBlank_newline (indent : Option Nat) (level : Nat) : IsBlank (newline indent level) := by
  intro c hc
  cases indent with
  | none => cases hc
  | some width =>
    rcases List.mem_cons.mp hc with rfl | hc
    · rfl
    · rw [List.eq_of_mem_replicate hc]
      rfl

theorem sequenceText_writeElements (outer : Nat) {x : Json} {xs : List Json}
    (h : ∀ y ∈ x :: xs, ValueText limits y (writeAt indent level y)) :
    SequenceText (ValueText limits) (x :: xs) (newline indent level ++ (writeAt indent level x ++
      (writeElements indent level xs ++ newline indent outer))) := by
  induction xs generalizing x with
  | nil =>
    rw [writeElements, List.nil_append]
    exact .one (isBlank_newline _ _) (h x List.mem_cons_self) (isBlank_newline _ _)
  | cons y ys ih =>
    have hmore := ih fun z hz => h z (List.mem_cons_of_mem x hz)
    have hcomma : Text.ofString "," = [.char ','] := rfl
    rw [writeElements, hcomma]
    simp only [List.append_assoc, List.singleton_append]
    exact .more (isBlank_newline _ _) (h x List.mem_cons_self) isBlank_nil hmore

/-- The text that is written for a member. -/
theorem memberText_write {m : Text × Json} (h : ValueText limits m.2 (writeAt indent level m.2)) :
    MemberText (ValueText limits) m (writeString m.1 ++ (colon indent ++ writeAt indent level m.2)) := by
  cases indent with
  | none => exact .mk (stringText_writeString m.1) isBlank_nil isBlank_nil h
  | some width =>
    have hspace : IsBlank [.char ' '] := by simp [IsBlank, isSpace]
    exact .mk (stringText_writeString m.1) isBlank_nil hspace h

theorem sequenceText_writeMembers (outer : Nat) {m : Text × Json} {members : List (Text × Json)}
    (h : ∀ n ∈ m :: members, ValueText limits n.2 (writeAt indent level n.2)) :
    SequenceText (MemberText (ValueText limits)) (m :: members)
      (newline indent level ++ ((writeString m.1 ++ (colon indent ++ writeAt indent level m.2)) ++
        (writeMembers indent level members ++ newline indent outer))) := by
  induction members generalizing m with
  | nil =>
    rw [writeMembers, List.nil_append]
    exact .one (isBlank_newline _ _) (memberText_write (h m List.mem_cons_self)) (isBlank_newline _ _)
  | cons n members ih =>
    have hmore := ih fun z hz => h z (List.mem_cons_of_mem m hz)
    have hcomma : Text.ofString "," = [.char ','] := rfl
    rw [writeMembers, hcomma]
    simp only [List.append_assoc, List.singleton_append] at hmore ⊢
    have hm := SequenceText.more (isBlank_newline indent level) (memberText_write (h m List.mem_cons_self))
      isBlank_nil hmore
    simpa only [List.append_assoc, List.nil_append, List.cons_append] using hm

/-- What is written for a readable document is a text of it. -/
theorem valueText_writeAt (hplaces : limits.Takes 17) (indent : Option Nat) (level : Nat) {document : Json}
    (h : document.Readable limits) :
    ValueText limits document (writeAt indent level document) := by
  induction h generalizing level with
  | null => exact .null
  | bool b => 
    cases b with
    | true => exact .true
    | false => exact .false
  | int hn => exact .number (numberText_ofInt hn)
  | float negative size => exact .number (numberText_writeFinite DecimalStyle.saved negative size hplaces)
  | text t => exact .string (stringText_writeString t)
  | @array elements _ ih =>
    cases elements with
    | nil => exact .array (.empty isBlank_nil)
    | cons x xs =>
      have harray := ValueText.array (.items (sequenceText_writeElements level fun y hy => ih y hy (level + 1)))
      have hopen : Text.ofString "[" = [.char '['] := rfl
      have hclose : Text.ofString "]" = [.char ']'] := rfl
      rw [writeAt, hopen, hclose]
      simpa only [List.append_assoc, List.cons_append, List.nil_append] using harray
  | @object members _ ih =>
    cases members with
    | nil => exact .object (.empty isBlank_nil)
    | cons m members =>
      have hobject := ValueText.object (.items (sequenceText_writeMembers level fun n hn => ih n hn (level + 1)))
      rw [writeAt]
      simpa only [List.append_assoc, List.cons_append] using hobject

end

/-- What is written for a readable document is one of its texts, whatever its indentation. -/
theorem documentText_write {limits : Limits} (hplaces : limits.Takes 17) {document : Json}
    (h : document.Readable limits) (indent : Option Nat) : DocumentText limits document (document.write indent) := by
  have htext := DocumentText.mk isBlank_nil (valueText_writeAt hplaces indent 0 h) isBlank_nil
  rwa [List.nil_append, List.append_nil] at htext

/-- The text of a readable document is read as the document. -/
theorem read_write {limits : Limits} (hplaces : limits.Takes 17) {document : Json}
    (h : document.Readable limits) (hd : document.depth ≤ limits.depth) (indent : Option Nat) :
    read limits (document.write indent) = .ok document := by
  rw [read_of_documentText (documentText_write hplaces h indent) h, if_pos hd]

/-! ## Halves of surrogate pairs -/

theorem hasLoneSurrogate_newline (indent : Option Nat) (level : Nat) :
    (newline indent level).hasLoneSurrogate = false := by
  cases indent with
  | none => rfl
  | some width => simp [newline, Text.hasLoneSurrogate, CodePoint.isLoneSurrogate]

theorem hasLoneSurrogate_colon (indent : Option Nat) : (colon indent).hasLoneSurrogate = false := by
  cases indent <;> rfl

theorem hasLoneSurrogate_signed (negative : Bool) (t : Text) :
    (signed negative t).hasLoneSurrogate = t.hasLoneSurrogate := by
  cases negative <;> rfl

mutual

/-- What is written for a document has halves of surrogate pairs exactly if the document has. -/
theorem hasLoneSurrogate_writeAt (indent : Option Nat) (level : Nat) :
    ∀ document, (writeAt indent level document).hasLoneSurrogate = document.hasLoneSurrogate
  | .null => rfl
  | .bool b => by cases b <;> rfl
  | .int n => by
    rw [writeAt, ofInt_eq_signed, hasLoneSurrogate_signed, hasLoneSurrogate_ofChars]
    rfl
  | .float x => by
    cases x with
    | finite negative size =>
      rw [writeAt, writeFloat, writeFinite_eq_signed, hasLoneSurrogate_signed, hasLoneSurrogate_ofChars]
      rfl
    | _ => rfl
  | .text t => by rw [writeAt, hasLoneSurrogate_writeString, hasLoneSurrogate]
  | .array [] => rfl
  | .array (x :: xs) => by
    have hopen : Text.hasLoneSurrogate "[" = false := rfl
    have hclose : Text.hasLoneSurrogate "]" = false := rfl
    rw [writeAt, hasLoneSurrogate, anyLoneSurrogate]
    simp only [hasLoneSurrogate_append, hasLoneSurrogate_newline, hasLoneSurrogate_writeAt indent (level + 1) x,
      hasLoneSurrogate_writeElements indent (level + 1) xs, hopen, hclose, Bool.false_or, Bool.or_false]
  | .object [] => rfl
  | .object ((key, x) :: members) => by
    have hopen (t : Text) : Text.hasLoneSurrogate (.char '{' :: t) = t.hasLoneSurrogate := rfl
    have hclose : Text.hasLoneSurrogate [.char '}'] = false := rfl
    rw [writeAt, hasLoneSurrogate, anyLoneSurrogateIn]
    simp only [List.cons_append, hopen, hasLoneSurrogate_append, hasLoneSurrogate_newline, hasLoneSurrogate_colon,
      hasLoneSurrogate_writeString, hasLoneSurrogate_writeAt indent (level + 1) x,
      hasLoneSurrogate_writeMembers indent (level + 1) members, hclose, Bool.false_or, Bool.or_false]

theorem hasLoneSurrogate_writeElements (indent : Option Nat) (level : Nat) :
    ∀ elements, (writeElements indent level elements).hasLoneSurrogate = anyLoneSurrogate elements
  | [] => rfl
  | x :: xs => by
    have hcomma : Text.hasLoneSurrogate "," = false := rfl
    rw [writeElements, anyLoneSurrogate]
    simp only [hasLoneSurrogate_append, hasLoneSurrogate_newline, hasLoneSurrogate_writeAt indent level x,
      hasLoneSurrogate_writeElements indent level xs, hcomma, Bool.false_or]

theorem hasLoneSurrogate_writeMembers (indent : Option Nat) (level : Nat) :
    ∀ members, (writeMembers indent level members).hasLoneSurrogate = anyLoneSurrogateIn members
  | [] => rfl
  | (key, x) :: members => by
    have hcomma : Text.hasLoneSurrogate "," = false := rfl
    rw [writeMembers, anyLoneSurrogateIn]
    simp only [hasLoneSurrogate_append, hasLoneSurrogate_newline, hasLoneSurrogate_colon, hasLoneSurrogate_writeString,
      hasLoneSurrogate_writeAt indent level x, hasLoneSurrogate_writeMembers indent level members, hcomma,
      Bool.false_or, Bool.or_false]

end

end FieldForest.Json
