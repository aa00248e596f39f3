/-
  FieldForest.Proofs.Json.Grammar — the texts that write a document, and that they are read.

  The grammar is that of JSON, with blanks wherever it allows them and every way to write a
  string or a number, as long as a reader takes the places in front of the number's point.

  The induction is on how deep the reader lets arrays and objects nest. Inside a level it goes
  along the elements, each read by a reader that is known to read what is written, up to text
  that ends a value. One statement covers both outcomes: a document that nests too deep for the
  reader is found so, whatever comes behind the place where that shows.

  Proved:
  - `readString_of_stringText`: a string is read, however it is written.
  - `readItems_sequence` / `readBracketed_list`: elements and members are read if each of them is.
  - `readsUpTo_readValue`: so is every value that nests no deeper than the reader goes.
  - `read_of_documentText`: a document is read from each of its texts, or found to nest too deep.
-/
import FieldForest.Proofs.Json.Numbers

namespace FieldForest.Json

/-! ## Documents -/

/-- Induction over documents, from the elements and members of one to the document itself. -/
@[elab_as_elim]
theorem induction {motive : Json → Prop} (null : motive .null) (bool : ∀ b, motive (.bool b))
    (int : ∀ n, motive (.int n)) (float : ∀ x, motive (.float x)) (text : ∀ t, motive (.text t))
    (array : ∀ elements : List Json, (∀ x ∈ elements, motive x) → motive (.array elements))
    (object : ∀ members : List (Text × Json), (∀ m ∈ members, motive m.2) → motive (.object members)) :
    ∀ x, motive x
  | .null => null
  | .bool b => bool b
  | .int n => int n
  | .float x => float x
  | .text t => text t
  | .array elements => array elements fun x _ => induction null bool int float text array object x
  | .object members => object members fun m _ => induction null bool int float text array object m.2
termination_by x => sizeOf x
decreasing_by
  · have := List.sizeOf_lt_of_mem (a := x) ‹_›
    simp only [Json.array.sizeOf_spec]
    omega
  · obtain ⟨key, x⟩ := m
    have := List.sizeOf_lt_of_mem (a := (key, x)) ‹_›
    simp only [Json.object.sizeOf_spec, Prod.mk.sizeOf_spec] at this ⊢
    omega

mutual

/-- How deep arrays and objects nest in a document. -/
def depth : Json → Nat
  | .array elements => 1 + mostDepth elements
  | .object members => 1 + mostMemberDepth members
  | _ => 0

def mostDepth : List Json → Nat
  | [] => 0
  | x :: xs => max x.depth (mostDepth xs)

def mostMemberDepth : List (Text × Json) → Nat
  | [] => 0
  | (_, x) :: rest => max x.depth (mostMemberDepth rest)

end

theorem mostDepth_le_iff {xs : List Json} {n : Nat} : mostDepth xs ≤ n ↔ ∀ x ∈ xs, x.depth ≤ n := by
  induction xs with
  | nil => simp [mostDepth]
  | cons x xs ih => rw [mostDepth, Nat.max_le, ih, List.forall_mem_cons]

theorem mostMemberDepth_le_iff {members : List (Text × Json)} {n : Nat} :
    mostMemberDepth members ≤ n ↔ ∀ m ∈ members, m.2.depth ≤ n := by
  induction members with
  | nil => simp [mostMemberDepth]
  | cons m rest ih => rw [mostMemberDepth, Nat.max_le, ih, List.forall_mem_cons]

theorem depth_array_le_iff {xs : List Json} {n : Nat} :
    depth (.array xs) ≤ n + 1 ↔ ∀ x ∈ xs, x.depth ≤ n := by
  rw [← mostDepth_le_iff, depth]
  omega

theorem depth_object_le_iff {members : List (Text × Json)} {n : Nat} :
    depth (.object members) ≤ n + 1 ↔ ∀ m ∈ members, m.2.depth ≤ n := by
  rw [← mostMemberDepth_le_iff, depth]
  omega

/-- A document that a reader can give: its numbers are finite and not too long. -/
inductive Readable (limits : Limits) : Json → Prop
  | null : Readable limits .null
  | bool (b : Bool) : Readable limits (.bool b)
  | int {n : Int} : limits.Admits n → Readable limits (.int n)
  | float (negative : Bool) (size : Magnitude) : Readable limits (.float (.finite negative size))
  | text (t : Text) : Readable limits (.text t)
  | array {elements : List Json} : (∀ x ∈ elements, Readable limits x) → Readable limits (.array elements)
  | object {members : List (Text × Json)} : (∀ m ∈ members, Readable limits m.2) → Readable limits (.object members)

theorem Readable.texts {limits : Limits} (t u : Text) : Readable limits (.array [.text t, .text u]) := by
  refine .array ?_
  rw [List.forall_mem_cons, List.forall_mem_singleton]
  exact ⟨.text t, .text u⟩

/-! ## The grammar -/

def IsBlank (t : Text) : Prop := ∀ c ∈ t, isSpace c = true

/-- The texts of a piece of a string. -/
inductive PieceText : Piece → Text → Prop
  | plain {c : CodePoint} : c ≠ .char '"' → c ≠ .char '\\' → ¬ c.toNat < 0x20 → PieceText (.point c) [c]
  | short {letter : CodePoint} {c : Char} : shortEscape? letter = some c →
      PieceText (.point (.char c)) [.char '\\', letter]
  | unit {a b c d : CodePoint} {n : Nat} : hexUnit? a b c d = some n →
      PieceText (.unit n) [.char '\\', .char 'u', a, b, c, d]

inductive PiecesText : List Piece → Text → Prop
  | nil : PiecesText [] []
  | cons {p : Piece} {ps : List Piece} {s t : Text} : PieceText p s → PiecesText ps t → PiecesText (p :: ps) (s ++ t)

/-- The texts of a string: between quotes, pieces that join to it. -/
inductive StringText : Text → Text → Prop
  | quoted {ps : List Piece} {u : Text} : PiecesText ps u →
      StringText (joinPieces ps) (.char '"' :: (u ++ [.char '"']))

/-- One or more items with commas between, and blanks around each. -/
inductive SequenceText {α : Type} (Item : α → Text → Prop) : List α → Text → Prop
  | one {x : α} {before s after : Text} : IsBlank before → Item x s → IsBlank after →
      SequenceText Item [x] (before ++ (s ++ after))
  | more {x : α} {xs : List α} {before s after t : Text} : IsBlank before → Item x s → IsBlank after →
      SequenceText Item xs t → SequenceText Item (x :: xs) (before ++ (s ++ (after ++ .char ',' :: t)))

/-- The items between two brackets, of which there may be none. -/
inductive ListText {α : Type} (Item : α → Text → Prop) : List α → Text → Prop
  | empty {blank : Text} : IsBlank blank → ListText Item [] blank
  | items {xs : List α} {t : Text} : SequenceText Item xs t → ListText Item xs t

/-- A key and a value with a colon between. -/
inductive MemberText (Value : Json → Text → Prop) : Text × Json → Text → Prop
  | mk {key k : Text} {x : Json} {before after s : Text} : StringText key k → IsBlank before → IsBlank after →
      Value x s → MemberText Value (key, x) (k ++ (before ++ .char ':' :: (after ++ s)))

/-- The texts of a value. -/
inductive ValueText (limits : Limits) : Json → Text → Prop
  | null : ValueText limits .null "null"
  | true : ValueText limits (.bool true) "true"
  | false : ValueText limits (.bool false) "false"
  | number {x : Json} {t : Text} : NumberText limits x t → ValueText limits x t
  | string {t s : Text} : StringText t s → ValueText limits (.text t) s
  | array {xs : List Json} {t : Text} : ListText (ValueText limits) xs t →
      ValueText limits (.array xs) (.char '[' :: (t ++ [.char ']']))
  | object {members : List (Text × Json)} {t : Text} : ListText (MemberText (ValueText limits)) members t →
      ValueText limits (.object members) (.char '{' :: (t ++ [.char '}']))

/-- The texts of a document: those of the value with blanks around. -/
inductive DocumentText (limits : Limits) : Json → Text → Prop
  | mk {x : Json} {before s after : Text} : IsBlank before → ValueText limits x s → IsBlank after →
      DocumentText limits x (before ++ (s ++ after))

/-! ## Blanks -/

theorem isBlank_nil : IsBlank [] := List.forall_mem_nil _

theorem skipSpace_blank {blank : Text} (h : IsBlank blank) (s : Text) : skipSpace (blank ++ s) = skipSpace s :=
  List.dropWhile_append_of_pos h

theorem endsValue_blank {blank s : Text} (h : IsBlank blank) (hs : EndsValue s) : EndsValue (blank ++ s) := by
  cases blank with
  | nil => exact hs
  | cons c blank =>
    have hc : isSpace c = true := h c List.mem_cons_self
    simp only [isSpace, Bool.or_eq_true, decide_eq_true_eq] at hc
    rcases hc with ((rfl | rfl) | rfl) | rfl
    · exact .space
    · exact .tab
    · exact .newline
    · exact .carriageReturn

/-- A bracket that closes an array or an object. -/
def IsClosing (c : Char) : Prop := c = ']' ∨ c = '}'

instance (c : Char) : Decidable (IsClosing c) := inferInstanceAs (Decidable (_ ∨ _))

/-- Text that begins as a value does: with no blank, no closing bracket and no byte order mark. -/
def BeginsValue (t : Text) : Prop :=
  ∃ c s, t = .char c :: s ∧ isSpace (.char c) = false ∧ ¬ IsClosing c ∧ c ≠ '\uFEFF'

namespace BeginsValue

variable {t : Text}

theorem append (h : BeginsValue t) (s : Text) : BeginsValue (t ++ s) := by
  obtain ⟨c, u, rfl, hc⟩ := h
  exact ⟨c, u ++ s, rfl, hc⟩

theorem skipSpace_eq (h : BeginsValue t) : skipSpace t = t := by
  obtain ⟨c, u, rfl, hc, -⟩ := h
  rw [skipSpace, List.dropWhile_cons, hc]
  rfl

theorem head?_ne (h : BeginsValue t) : t.head? ≠ some (.char '\uFEFF') := by
  obtain ⟨c, u, rfl, -, -, hc⟩ := h
  simpa using hc

end BeginsValue

theorem beginsValue_signed {c : Char} (hc : c.isDigit = true) (negative : Bool) (s : Text) :
    BeginsValue (signed negative (.char c :: s)) := by
  cases negative with
  | true => exact ⟨'-', .char c :: s, rfl, by decide, by decide, by decide⟩
  | false =>
    have hother (d : Char) (hd : d.isDigit = false) : c ≠ d := ne_of_isDigit hc hd
    refine ⟨c, s, rfl, ?_, not_or.mpr ⟨hother ']' rfl, hother '}' rfl⟩, hother '\uFEFF' rfl⟩
    simp [isSpace, hother ' ' rfl, hother '\t' rfl, hother '\n' rfl, hother '\r' rfl]

/-- A value is read from where it begins, behind blanks. -/
theorem skipSpace_of_begins {blank s : Text} (h : IsBlank blank) (hs : BeginsValue s) (t : Text) :
    skipSpace (blank ++ (s ++ t)) = s ++ t := by
  rw [skipSpace_blank h, (hs.append t).skipSpace_eq]

/-! ## Strings -/

theorem readPieces_of_pieceText (opening : Text) {p : Piece} {s t : Text} (h : PieceText p s) (ht : t ≠ []) :
    readPieces opening (s ++ t) = (readPieces opening t).map (putFirst p) := by
  cases h with
  | plain hquote hbackslash hprintable =>
    -- the last equation of the reader applies: no quote and no backslash comes first
    rw [List.singleton_append, readPieces]
    · exact if_neg hprintable
    · exact hquote
    · intro hc _
      exact hbackslash hc
    · intro _ _ _ _ _ hc _
      exact hbackslash hc
    · intro _ hc _
      exact hbackslash hc
    · intro _ _ hc _
      exact hbackslash hc
  | @short letter c hletter =>
    have hu : letter ≠ .char 'u' := by
      rintro rfl
      cases hletter
    show readPieces opening (.char '\\' :: letter :: t) = _
    rw [readPieces, hletter]
    · intro _ _ _ _ _ hc _
      exact hu hc
    · exact hu
  | unit hunit =>
    obtain ⟨x, xs, rfl⟩ := List.exists_cons_of_ne_nil ht
    simp [readPieces, hunit]

theorem readPieces_of_piecesText (opening : Text) {ps : List Piece} {u : Text} (h : PiecesText ps u) (rest : Text) :
    readPieces opening (u ++ .char '"' :: rest) = .ok (ps, rest) := by
  induction h with
  | nil => rfl
  | cons hp hps ih =>
    rw [List.append_assoc, readPieces_of_pieceText opening hp, ih]
    · rfl
    · exact List.append_ne_nil_of_right_ne_nil _ (List.cons_ne_nil _ _)

/-- A string is read behind its opening quote, however it is written. -/
theorem readString_of_stringText {t s : Text} (h : StringText t s) :
    ∃ u, s = .char '"' :: u ∧ ∀ opening rest, readString opening (u ++ rest) = .ok (t, rest) := by
  obtain ⟨hps⟩ := h
  refine ⟨_, rfl, fun opening rest => ?_⟩
  rw [List.append_assoc, List.singleton_append, readString, readPieces_of_piecesText opening hps]
  rfl

theorem begins_stringText {t s : Text} (h : StringText t s) : BeginsValue s := by
  obtain ⟨hps⟩ := h
  exact ⟨'"', _, rfl, by decide, by decide, by decide⟩

theorem readScalar_of_stringText (limits : Limits) {t s : Text} (h : StringText t s) (rest : Text) :
    readScalar limits (s ++ rest) = .ok (.text t, rest) := by
  obtain ⟨u, rfl, hread⟩ := readString_of_stringText h
  rw [List.cons_append, readScalar, hread]
  rfl

/-- A value begins with what can be nothing else. -/
theorem begins_valueText {limits : Limits} (x : Json) (t : Text) (h : ValueText limits x t) : BeginsValue t := by
  cases h with
  | null => exact ⟨'n', _, rfl, by decide, by decide, by decide⟩
  | true => exact ⟨'t', _, rfl, by decide, by decide, by decide⟩
  | false => exact ⟨'f', _, rfl, by decide, by decide, by decide⟩
  | number ht =>
    obtain ⟨negative, c, s, hc, rfl⟩ := begins_numberText ht
    exact beginsValue_signed hc negative s
  | string ht => exact begins_stringText ht
  | array _ => exact ⟨'[', _, rfl, by decide, by decide, by decide⟩
  | object _ => exact ⟨'{', _, rfl, by decide, by decide, by decide⟩

/-! ## Elements and members -/

section

variable {α : Type} {Item : α → Text → Prop}

theorem begins_sequenceText (hitem : ∀ x s, Item x s → BeginsValue s) {xs : List α} {t : Text}
    (h : SequenceText Item xs t) (u : Text) : BeginsValue (skipSpace (t ++ u)) := by
  cases h with
  | one hbefore hx _ | more hbefore hx _ _ =>
    rw [List.append_assoc, List.append_assoc, skipSpace_of_begins hbefore (hitem _ _ hx)]
    exact (hitem _ _ hx).append _

end

/-- A reader that reads the item from this text if it nests at most `depth` deep, and else finds it
    too deep. -/
def ReadsUpTo {α : Type} (item : Reader α) (level : α → Nat) (depth : Nat) (x : α) (s : Text) : Prop :=
  ∀ rest, EndsValue rest → item (s ++ rest) = if level x ≤ depth then .ok (x, rest) else .error .tooDeep

section

variable {α : Type} {close : Char} {item : Reader α} {x : α} {s t u rest : Text} {fuel : Nat}

theorem readItems_error {e : ReadError} (hx : item s = .error e) : readItems close item (fuel + 1) s = .error e := by
  rw [readItems, hx]
  rfl

theorem readItems_last (hx : item s = .ok (x, t)) (ht : skipSpace t = .char close :: rest) :
    readItems close item (fuel + 1) s = .ok ([x], rest) := by
  rw [readItems, hx]
  simp only [bind, Except.bind, ht, if_true]

theorem readItems_more (hcomma : close ≠ ',') (hx : item s = .ok (x, t)) (ht : skipSpace t = .char ',' :: u) :
    readItems close item (fuel + 1) s =
      (readItems close item fuel (skipSpace u)).map fun (xs, rest) => (x :: xs, rest) := by
  have hother : ¬ CodePoint.char ',' = .char close := fun h => hcomma (CodePoint.char.inj h).symm
  rw [readItems, hx]
  simp only [bind, Except.bind, ht, if_true, if_neg hother]
  cases readItems close item fuel (skipSpace u) <;> rfl

end

section

variable {α : Type} {Item : α → Text → Prop} {close : Char} {item : Reader α} {level : α → Nat} {depth bound : Nat}

theorem endsValue_closing (hclose : IsClosing close) (rest : Text) : EndsValue (.char close :: rest) := by
  rcases hclose with rfl | rfl
  · exact .bracket
  · exact .brace

theorem skipSpace_closing (hclose : IsClosing close) {blank : Text} (h : IsBlank blank) (rest : Text) :
    skipSpace (blank ++ .char close :: rest) = .char close :: rest := by
  rw [skipSpace_blank h]
  rcases hclose with rfl | rfl <;> rfl

/-- Items are read up to the bracket that closes them, the first that nests too deep ending that. -/
theorem readItems_sequence (hclose : IsClosing close) (hbegins : ∀ x s, Item x s → BeginsValue s) {xs : List α}
    {t : Text} (h : SequenceText Item xs t) (hbound : t.length ≤ bound)
    (hitem : ∀ x ∈ xs, ∀ s, Item x s → s.length ≤ bound → ReadsUpTo item level depth x s) {fuel : Nat}
    (hfuel : t.length < fuel) (rest : Text) :
    readItems close item fuel (skipSpace (t ++ .char close :: rest)) =
      if ∀ x ∈ xs, level x ≤ depth then .ok (xs, rest) else .error .tooDeep := by
  induction h generalizing fuel with
  | @one x before s after hbefore hx hafter =>
    cases fuel with
    | zero => cases hfuel
    | succ fuel =>
      simp only [List.length_append] at hbound
      have hread := hitem x List.mem_cons_self s hx (by omega) _
        (endsValue_blank hafter (endsValue_closing hclose rest))
      rw [List.append_assoc, List.append_assoc, skipSpace_of_begins hbefore (hbegins x s hx)]
      simp only [List.forall_mem_singleton]
      by_cases hlevel : level x ≤ depth
      · rw [if_pos hlevel] at hread ⊢
        exact readItems_last hread (skipSpace_closing hclose hafter rest)
      · rw [if_neg hlevel] at hread ⊢
        exact readItems_error hread
  | @more x xs before s after t hbefore hx hafter ht ih =>
    cases fuel with
    | zero => cases hfuel
    | succ fuel =>
      simp only [List.length_append, List.length_cons] at hbound hfuel
      have hcomma : close ≠ ',' := by rcases hclose with rfl | rfl <;> decide
      have hend : EndsValue (after ++ .char ',' :: (t ++ .char close :: rest)) := endsValue_blank hafter .comma
      have hread := hitem x List.mem_cons_self s hx (by omega) _ hend
      have hless : t.length < fuel := by omega
      have htail := ih (by omega) (fun y hy => hitem y (List.mem_cons_of_mem x hy)) hless
      have hskip : skipSpace (after ++ .char ',' :: (t ++ .char close :: rest)) =
          .char ',' :: (t ++ .char close :: rest) := skipSpace_blank hafter _
      simp only [List.append_assoc, List.cons_append, List.forall_mem_cons]
      rw [skipSpace_of_begins hbefore (hbegins x s hx)]
      by_cases hlevel : level x ≤ depth
      · rw [if_pos hlevel] at hread
        rw [readItems_more hcomma hread hskip, htail]
        by_cases hlevels : ∀ y ∈ xs, level y ≤ depth
        · rw [if_pos hlevels, if_pos ⟨hlevel, hlevels⟩]
          rfl
        · rw [if_neg hlevels, if_neg fun hboth => hlevels hboth.2]
          rfl
      · rw [if_neg hlevel] at hread
        rw [readItems_error hread, if_neg fun hboth => hlevel hboth.1]

/-- So they are behind the bracket that opens them. -/
theorem readBracketed_list (hclose : IsClosing close) (hbegins : ∀ x s, Item x s → BeginsValue s) {xs : List α}
    {t : Text} (h : ListText Item xs t) (hbound : t.length < bound)
    (hitem : ∀ x ∈ xs, ∀ s, Item x s → s.length ≤ bound → ReadsUpTo item level depth x s) (rest : Text) :
    readBracketed close item bound (t ++ .char close :: rest) =
      if ∀ x ∈ xs, level x ≤ depth then .ok (xs, rest) else .error .tooDeep := by
  cases h with
  | empty hblank =>
    rw [readBracketed, skipSpace_closing hclose hblank, if_pos (List.forall_mem_nil _)]
    simp only [if_true]
  | items h =>
    have hread := readItems_sequence hclose hbegins h (Nat.le_of_lt hbound) hitem hbound rest
    obtain ⟨c, s, heq, -, hc, -⟩ := begins_sequenceText hbegins h (.char close :: rest)
    have hother : ¬ CodePoint.char c = .char close := fun h => hc (CodePoint.char.inj h ▸ hclose)
    rw [heq] at hread
    rw [readBracketed, heq]
    simp only [if_neg hother, hread]

end

theorem begins_memberText {Value : Json → Text → Prop} (m : Text × Json) (s : Text) (h : MemberText Value m s) :
    BeginsValue s := by
  obtain ⟨hk, -, -, -⟩ := h
  exact (begins_stringText hk).append _

/-- A member is read if its value is. -/
theorem readsUpTo_readMember {Value : Json → Text → Prop} (hbegins : ∀ x s, Value x s → BeginsValue s)
    {item : Reader Json} {depth bound : Nat} {m : Text × Json} {t : Text} (h : MemberText Value m t)
    (hbound : t.length ≤ bound)
    (hitem : ∀ s, Value m.2 s → s.length ≤ bound → ReadsUpTo item Json.depth depth m.2 s) :
    ReadsUpTo (readMember item) (·.2.depth) depth m t := by
  intro rest hrest
  obtain @⟨key, k, x, before, after, s, hk, hbefore, hafter, hx⟩ := h
  simp only [List.length_append, List.length_cons] at hbound
  have hread := hitem s hx (by omega) rest hrest
  obtain ⟨u, rfl, hkey⟩ := readString_of_stringText hk
  have hcolon : skipSpace (before ++ .char ':' :: (after ++ (s ++ rest))) = .char ':' :: (after ++ (s ++ rest)) :=
    skipSpace_blank hbefore _
  simp only [List.append_assoc, List.cons_append]
  rw [readMember, readKey, hkey]
  simp only [bind, Except.bind, hcolon, skipSpace_of_begins hafter (hbegins x s hx)]
  by_cases hdepth : x.depth ≤ depth
  · rw [if_pos hdepth] at hread ⊢
    rw [hread]
  · rw [if_neg hdepth] at hread ⊢
    rw [hread]

/-! ## Values -/

section

variable {limits : Limits} {bound depth : Nat}

theorem readValue_scalar {c : Char} (hb : c ≠ '[') (hc : c ≠ '{') (s : Text) :
    readValue limits bound depth (.char c :: s) = readScalar limits (.char c :: s) := by
  cases depth <;> simp [readValue, hb, hc]

theorem readValue_signed {c : Char} (hc : c.isDigit = true) (negative : Bool) (s : Text) :
    readValue limits bound depth (signed negative (.char c :: s)) =
      readNumber limits (signed negative (.char c :: s)) := by
  rw [← readScalar_of_digit hc]
  cases negative with
  | true => exact readValue_scalar (by decide) (by decide) _
  | false => exact readValue_scalar (ne_of_isDigit hc rfl) (ne_of_isDigit hc rfl) _

theorem readsUpTo_of_number {x : Json} {t : Text} (h : NumberText limits x t) (hx : x.Readable limits) :
    ReadsUpTo (readValue limits bound depth) Json.depth depth x t := by
  intro rest hrest
  have hadmits : ∀ n, x = .int n → limits.Admits n := by
    rintro n rfl
    cases hx with
    | int hn => exact hn
  have hdepth : x.depth = 0 := by cases h <;> rfl
  have hread := readNumber_of_numberText h hadmits hrest
  obtain ⟨negative, c, s, hc, rfl⟩ := begins_numberText h
  rw [signed_append, List.cons_append] at hread ⊢
  rw [readValue_signed hc, hread, hdepth, if_pos (Nat.zero_le _)]

theorem readsUpTo_of_string {t s : Text} (h : StringText t s) :
    ReadsUpTo (readValue limits bound depth) Json.depth depth (.text t) s := by
  intro rest hrest
  have hread := readScalar_of_stringText limits h rest
  have hdepth : Json.depth (.text t) ≤ depth := Nat.zero_le _
  obtain ⟨u, rfl, -⟩ := readString_of_stringText h
  rw [List.cons_append] at hread ⊢
  rw [readValue_scalar (by decide) (by decide), hread, if_pos hdepth]

/-- A value is read from each of its texts, or found to nest too deep. -/
theorem readsUpTo_readValue {x : Json} {t : Text} (h : ValueText limits x t) (hx : x.Readable limits)
    (hbound : t.length ≤ bound) : ReadsUpTo (readValue limits bound depth) Json.depth depth x t := by
  -- on the depth that the reader has left, and not on the text: what one level reads is given by
  -- the readers of the next
  induction depth generalizing x t with
  | zero =>
    cases h with
    | null | true | false =>
      intro rest hrest
      rfl
    | number ht => exact readsUpTo_of_number ht hx
    | string ht => exact readsUpTo_of_string ht
    | array _ | object _ =>
      intro rest hrest
      rw [if_neg (by rw [Json.depth]; omega)]
      rfl
  | succ depth ih =>
    cases h with
    | null | true | false =>
      intro rest hrest
      rfl
    | number ht => exact readsUpTo_of_number ht hx
    | string ht => exact readsUpTo_of_string ht
    | @array xs t ht =>
      cases hx with
      | array hxs =>
        intro rest hrest
        simp only [List.length_cons, List.length_append, List.length_nil] at hbound
        have hread := readBracketed_list (.inl rfl) begins_valueText ht (by omega)
          (fun y hy s hs hlength => ih hs (hxs y hy) hlength) rest
        simp only [List.cons_append, List.append_assoc, List.nil_append, readValue, hread, depth_array_le_iff]
        split <;> rfl
    | @object members t ht =>
      cases hx with
      | object hmembers =>
        intro rest hrest
        simp only [List.length_cons, List.length_append, List.length_nil] at hbound
        have hread := readBracketed_list (.inr rfl) begins_memberText ht (by omega)
          (fun m hm s hs hlength => readsUpTo_readMember begins_valueText hs hlength fun u hu => ih hu (hmembers m hm)) rest
        simp only [List.cons_append, List.append_assoc, List.nil_append, readValue, hread, depth_object_le_iff]
        split <;> rfl

end

/-- What begins with blanks or a value begins with no byte order mark. -/
theorem head?_ne_of_begins {blank s : Text} (h : IsBlank blank) (hs : BeginsValue s) :
    (blank ++ s).head? ≠ some (.char '\uFEFF') := by
  cases blank with
  | nil => exact hs.head?_ne
  | cons c blank =>
    intro hmark
    rw [List.cons_append, List.head?_cons, Option.some.injEq] at hmark
    have hc := h c List.mem_cons_self
    rw [hmark] at hc
    cases hc

/-- A document is read from each of its texts, or found to nest too deep. -/
theorem read_of_documentText {limits : Limits} {x : Json} {t : Text} (h : DocumentText limits x t)
    (hx : x.Readable limits) :
    read limits t = if x.depth ≤ limits.depth then .ok x else .error .tooDeep := by
  obtain @⟨before, s, after, hbefore, hs, hafter⟩ := h
  have hbegins := begins_valueText x s hs
  have hend : EndsValue after := by simpa using endsValue_blank hafter .nothing
  have hbound : s.length ≤ (before ++ (s ++ after)).length + 1 := by
    simp only [List.length_append]
    omega
  have hreads : ReadsUpTo (readValue limits _ limits.depth) Json.depth limits.depth x s :=
    readsUpTo_readValue hs hx hbound
  have hread := hreads after hend
  have hrest := skipSpace_blank hafter []
  rw [List.append_nil] at hrest
  rw [read, if_neg (head?_ne_of_begins hbefore (hbegins.append after)), skipSpace_of_begins hbefore hbegins, hread]
  by_cases hdepth : x.depth ≤ limits.depth
  · rw [if_pos hdepth, if_pos hdepth]
    simp only [bind, Except.bind, hrest]
    rfl
  · rw [if_neg hdepth, if_neg hdepth]
    rfl

end FieldForest.Json
