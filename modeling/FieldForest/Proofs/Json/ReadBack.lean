/-
  FieldForest.Proofs.Json.ReadBack — which documents are read back from what is written for them.

  A number that is infinite or none is written as `null`; `finite` is the document that is then
  written. It is read back if it keeps within the limits of the reader. Otherwise nothing is
  read: a reader with wider limits reads the document, and what the narrower reader reads at
  all is the same and keeps within its limits.

  Proved:
  - `writeAt_finite`: a document is written as `finite` makes it.
  - `exists_readable_finite`: some limits are wide enough for it.
  - `narrowed_readNumber` / `narrowed_readValue` / `narrowed_read`: what is read is within the limits, and is what
    a reader with wider limits reads.
  - `read_write_eq_ok_iff`: so a document is read back exactly if it keeps within them.
-/
import FieldForest.Proofs.Json.Consumption
import FieldForest.Proofs.Json.RoundTrip

namespace FieldForest.Json

theorem Readable.elements {limits : Limits} {xs : List Json} (h : Readable limits (.array xs)) :
    ∀ x ∈ xs, x.Readable limits := by
  cases h
  assumption

theorem Readable.members {limits : Limits} {members : List (Text × Json)} (h : Readable limits (.object members)) :
    ∀ m ∈ members, m.2.Readable limits := by
  cases h
  assumption

/-! ## What is written of a document -/

mutual

/-- The document with `null` for numbers that are infinite or none. -/
def finite : Json → Json
  | .float (.finite negative size) => .float (.finite negative size)
  | .float _ => .null
  | .array elements => .array (finiteElements elements)
  | .object members => .object (finiteMembers members)
  | .null => .null
  | .bool b => .bool b
  | .int n => .int n
  | .text t => .text t

def finiteElements : List Json → List Json
  | [] => []
  | x :: xs => finite x :: finiteElements xs

def finiteMembers : List (Text × Json) → List (Text × Json)
  | [] => []
  | (key, x) :: rest => (key, finite x) :: finiteMembers rest

end

theorem finiteElements_eq_map (xs : List Json) : finiteElements xs = xs.map finite := by
  induction xs with
  | nil => rfl
  | cons x xs ih => rw [finiteElements, ih, List.map_cons]

theorem finiteMembers_eq_map (members : List (Text × Json)) :
    finiteMembers members = members.map fun m => (m.1, m.2.finite) := by
  induction members with
  | nil => rfl
  | cons m rest ih => rw [finiteMembers, ih, List.map_cons]

theorem finite_array (xs : List Json) : (array xs).finite = .array (xs.map finite) := by
  rw [finite, finiteElements_eq_map]

theorem finite_object (members : List (Text × Json)) :
    (object members).finite = .object (members.map fun m => (m.1, m.2.finite)) := by
  rw [finite, finiteMembers_eq_map]

mutual

theorem writeAt_finite (indent : Option Nat) (level : Nat) : ∀ x : Json,
    writeAt indent level x.finite = writeAt indent level x
  | .float x => by cases x <;> rfl
  | .array [] => rfl
  | .array (x :: xs) => by
    rw [finite, finiteElements, writeAt, writeAt_finite indent _ x, writeElements_finite indent _ xs, writeAt]
  | .object [] => rfl
  | .object ((key, x) :: rest) => by
    rw [finite, finiteMembers, writeAt, writeAt_finite indent _ x, writeMembers_finite indent _ rest, writeAt]
  | .null => rfl
  | .bool b => rfl
  | .int n => rfl
  | .text t => rfl

theorem writeElements_finite (indent : Option Nat) (level : Nat) : ∀ xs : List Json,
    writeElements indent level (finiteElements xs) = writeElements indent level xs
  | [] => rfl
  | x :: xs => by
    rw [finiteElements, writeElements, writeAt_finite indent _ x, writeElements_finite indent _ xs, writeElements]

theorem writeMembers_finite (indent : Option Nat) (level : Nat) : ∀ members : List (Text × Json),
    writeMembers indent level (finiteMembers members) = writeMembers indent level members
  | [] => rfl
  | (key, x) :: rest => by
    rw [finiteMembers, writeMembers, writeAt_finite indent _ x, writeMembers_finite indent _ rest, writeMembers]

end

theorem write_finite (indent : Option Nat) (x : Json) : x.finite.write indent = x.write indent :=
  writeAt_finite indent 0 x

theorem finite_finite (x : Json) : x.finite.finite = x.finite := by
  induction x using Json.induction with
  | float x => cases x <;> rfl
  | array elements ih =>
    rw [finite_array, finite_array, List.map_map]
    exact congrArg Json.array (List.map_congr_left ih)
  | object members ih =>
    rw [finite_object, finite_object, List.map_map]
    exact congrArg Json.object (List.map_congr_left fun m hm => congrArg (m.1, ·) (ih m hm))
  | _ => rfl

theorem mostDepth_map {f : Json → Json} {xs : List Json} (h : ∀ x ∈ xs, (f x).depth = x.depth) :
    mostDepth (xs.map f) = mostDepth xs := by
  induction xs with
  | nil => rfl
  | cons x xs ih =>
    obtain ⟨hx, hxs⟩ := List.forall_mem_cons.mp h
    rw [List.map_cons, mostDepth, mostDepth, hx, ih hxs]

theorem mostMemberDepth_map {f : Text × Json → Text × Json} {members : List (Text × Json)}
    (h : ∀ m ∈ members, (f m).2.depth = m.2.depth) : mostMemberDepth (members.map f) = mostMemberDepth members := by
  induction members with
  | nil => rfl
  | cons m rest ih =>
    obtain ⟨hm, hrest⟩ := List.forall_mem_cons.mp h
    rw [List.map_cons, mostMemberDepth, mostMemberDepth, hm, ih hrest]

theorem depth_finite (x : Json) : x.finite.depth = x.depth := by
  induction x using Json.induction with
  | float x => cases x <;> rfl
  | array elements ih => rw [finite_array, depth, depth, mostDepth_map ih]
  | object members ih => rw [finite_object, depth, depth, mostMemberDepth_map ih]
  | _ => rfl

/-- What a reader can give is written as it is. -/
theorem Readable.finite_eq {limits : Limits} {x : Json} (h : x.Readable limits) : x.finite = x := by
  induction h with
  | null | bool | int | float | text => rfl
  | @array elements _ ih =>
    rw [finite_array]
    exact congrArg Json.array ((List.map_congr_left ih).trans (List.map_id elements))
  | @object members _ ih =>
    have hmembers : ∀ m ∈ members, (m.1, m.2.finite) = m := fun m hm => congrArg (m.1, ·) (ih m hm)
    rw [finite_object]
    exact congrArg Json.object ((List.map_congr_left hmembers).trans (List.map_id members))

theorem hasLoneSurrogate_finite (x : Json) : x.finite.hasLoneSurrogate = x.hasLoneSurrogate := by
  rw [← hasLoneSurrogate_writeAt none 0, writeAt_finite, hasLoneSurrogate_writeAt]

/-! ## Wider limits -/

/-- The limits with so many digits for whole numbers, and no bound on places. -/
def Limits.widened (limits : Limits) (digits : Nat) : Limits :=
  { limits with intDigits := digits, places := none }

theorem Limits.takes_widened (limits : Limits) (digits places : Nat) : (limits.widened digits).Takes places :=
  Limits.takes_of_places rfl places

/-- Bounds that are large enough for each of a list have one that is for all. -/
theorem exists_bound {α : Type} {P : α → Nat → Prop} {xs : List α}
    (h : ∀ x ∈ xs, ∃ most, ∀ n, most ≤ n → P x n) : ∃ most, ∀ n, most ≤ n → ∀ x ∈ xs, P x n := by
  induction xs with
  | nil => exact ⟨0, fun _ _ => List.forall_mem_nil _⟩
  | cons x xs ih =>
    obtain ⟨hx, hxs⟩ := List.forall_mem_cons.mp h
    obtain ⟨most, hx⟩ := hx
    obtain ⟨mostBehind, hxs⟩ := ih hxs
    refine ⟨max most mostBehind, fun n hn => List.forall_mem_cons.mpr ⟨hx n ?_, hxs n ?_⟩⟩
    · omega
    · omega

/-- Some number of digits is enough for all whole numbers of a document. -/
theorem exists_readable_finite (limits : Limits) (x : Json) :
    ∃ most, ∀ digits, most ≤ digits → x.finite.Readable (limits.widened digits) := by
  induction x using Json.induction with
  | null => exact ⟨0, fun _ _ => .null⟩
  | bool b => exact ⟨0, fun _ _ => .bool b⟩
  | int n => exact ⟨(Nat.toDigits 10 n.natAbs).length, fun _ hdigits => .int ⟨hdigits, limits.takes_widened _ _⟩⟩
  | float x =>
    refine ⟨0, fun _ _ => ?_⟩
    cases x with
    | finite negative size => exact .float negative size
    | _ => exact .null
  | text t => exact ⟨0, fun _ _ => .text t⟩
  | array elements ih =>
    obtain ⟨most, h⟩ := exists_bound ih
    refine ⟨most, fun digits hdigits => ?_⟩
    rw [finite_array]
    exact .array (List.forall_mem_map.mpr (h digits hdigits))
  | object members ih =>
    obtain ⟨most, h⟩ := exists_bound ih
    refine ⟨most, fun digits hdigits => ?_⟩
    rw [finite_object]
    exact .object (List.forall_mem_map.mpr (h digits hdigits))

/-! ## What a reader with narrower limits reads -/

/-- What the one reader makes of a text is what the other makes of it, and fits. -/
def Narrowed {α : Type} (Fits : α → Prop) (narrow wide : Except ReadError (α × Text)) : Prop :=
  ∀ a rest, narrow = .ok (a, rest) → wide = .ok (a, rest) ∧ Fits a

namespace Narrowed

variable {α β : Type} {Fits : α → Prop} {Fits' : β → Prop} {narrow wide : Except ReadError (α × Text)}

theorem of_error {e : ReadError} (h : narrow = .error e) : Narrowed Fits narrow wide := by
  intro a rest hok
  cases h.symm.trans hok

theorem of_eq (h : narrow = wide) (hfits : ∀ a, Fits a) : Narrowed Fits narrow wide :=
  fun a _ hok => ⟨h ▸ hok, hfits a⟩

theorem bind {f g : α × Text → Except ReadError (β × Text)} (h : Narrowed Fits narrow wide)
    (hf : ∀ a rest, Fits a → Narrowed Fits' (f (a, rest)) (g (a, rest))) :
    Narrowed Fits' (narrow >>= f) (wide >>= g) := by
  intro b rest hok
  cases narrow with
  | error e => cases hok
  | ok found =>
    obtain ⟨hwide, hfits⟩ := h found.1 found.2 rfl
    rw [hwide]
    exact hf found.1 found.2 hfits b rest hok

theorem map {f : α × Text → β × Text} (h : Narrowed Fits narrow wide)
    (hf : ∀ a rest, Fits a → Fits' (f (a, rest)).1) : Narrowed Fits' (narrow.map f) (wide.map f) := by
  intro b rest hok
  cases narrow with
  | error e => cases hok
  | ok found =>
    obtain ⟨hwide, hfits⟩ := h found.1 found.2 rfl
    have hfound : f found = (b, rest) := Except.ok.inj hok
    have hb := hf found.1 found.2 hfits
    rw [show ((found.1, found.2) : α × Text) = found from rfl, hfound] at hb
    rw [hwide]
    exact ⟨hok, hb⟩

end Narrowed

variable {limits : Limits} {digits : Nat}

theorem isNumeral_of_integerPart? {s rest : Text} {ds : List Char} (h : integerPart? s = some (ds, rest)) :
    IsNumeral ds := by
  unfold integerPart? at h
  split at h
  · cases h
    exact ⟨List.cons_ne_nil _ _, List.forall_mem_singleton.mpr rfl, fun _ => rfl⟩
  · rename_i hzero
    split at h
    · cases h
    · rename_i hne
      have hspan := Option.some.inj h
      obtain ⟨hsplit, hdigits⟩ := Text.spanDigits_split hspan
      refine ⟨?_, hdigits, fun hhead => ?_⟩
      · rintro rfl
        exact hne _ hspan
      · obtain ⟨tail, rfl⟩ := List.head?_eq_some_iff.mp hhead
        exact absurd hsplit (hzero _)

theorem readNumber_of_too_many_places {negative : Bool} {unsigned rest : Text} {ds : List Char}
    (hi : integerPart? unsigned = some (ds, rest)) (hp : ¬ limits.Takes (frontPlaces negative ds)) :
    readNumber limits (signed negative unsigned) = .error (.tooManyDigits ds.length) := by
  have hunsigned : ∀ s, unsigned = .char '-' :: s → False := by
    rintro s rfl
    cases hi
  have hany : limits.places.any (· < frontPlaces negative ds) = true := by
    unfold Limits.Takes at hp
    simpa [Option.any_eq_true] using hp
  unfold readNumber
  cases negative with
  | true =>
    simp only [frontPlaces, if_true] at hany
    simp only [signed, if_true, hi, hany]
  | false =>
    simp only [frontPlaces, Bool.false_eq_true, if_false] at hany
    simp only [signed, if_true, Bool.false_eq_true, if_false, hi, hany]

/-- A whole number that is read is one that the reader admits. -/
theorem admits_signedInt {negative : Bool} {ds : List Char} (hd : IsNumeral ds) (hlength : ds.length ≤ limits.intDigits)
    (hp : limits.Takes (frontPlaces negative ds)) :
    limits.Admits (signedInt negative (Nat.ofDigitChars 10 ds 0)) := by
  have hdigits : Nat.toDigits 10 (signedInt negative (Nat.ofDigitChars 10 ds 0)).natAbs = ds := by
    rw [natAbs_signedInt, toDigits_ofDigitChars hd]
  refine ⟨by rw [hdigits]; exact hlength, ?_⟩
  rw [length_ofInt, hdigits]
  refine hp.mono ?_
  have hsign : (signedInt negative (Nat.ofDigitChars 10 ds 0) < 0) → negative = true := by
    unfold signedInt
    cases negative
    · simp
    · exact fun _ => rfl
  unfold frontPlaces
  split
  · exact Nat.le_of_eq (if_pos (hsign (of_decide_eq_true ‹_›))).symm
  · split <;> omega

/-- What a reader may give: it is readable but for numbers that are too large. -/
abbrev Fits (limits : Limits) (x : Json) : Prop := x.finite.Readable limits

theorem fits_float (limits : Limits) (x : Binary64) : Fits limits (.float x) := by
  cases x with
  | finite negative size => exact .float negative size
  | _ => exact .null

theorem narrowed_readNumber (h : limits.intDigits ≤ digits) (s : Text) :
    Narrowed (Fits limits) (readNumber limits s) (readNumber (limits.widened digits) s) := by
  obtain ⟨negative, unsigned, rfl, hsign⟩ := exists_signed s
  cases hi : integerPart? unsigned with
  | none => exact .of_error (readNumber_of_no_digits hi hsign)
  | some found =>
    obtain ⟨ds, rest⟩ := found
    by_cases hp : limits.Takes (frontPlaces negative ds)
    · rcases hf : fractionPart rest with ⟨fs, after⟩
      rw [readNumber_signed hi hf hp, readNumber_signed hi hf (limits.takes_widened _ _)]
      split
      · by_cases hlong : limits.intDigits < ds.length
        · exact .of_error (if_pos hlong)
        · have hlong' : ¬ (limits.widened digits).intDigits < ds.length := by
            show ¬ digits < ds.length
            omega
          have hadmits := admits_signedInt (isNumeral_of_integerPart? hi) (by omega) hp
          rw [if_neg hlong, if_neg hlong']
          rintro a rest ⟨⟩
          exact ⟨rfl, .int hadmits⟩
      · rintro a rest ⟨⟩
        exact ⟨rfl, fits_float limits _⟩
    · exact .of_error (readNumber_of_too_many_places hi hp)

theorem narrowed_readScalar (h : limits.intDigits ≤ digits) (s : Text) :
    Narrowed (Fits limits) (readScalar limits s) (readScalar (limits.widened digits) s) := by
  unfold readScalar
  split
  · rename_i rest
    have hstring : Narrowed (fun _ => True) (readString (.char '"' :: rest) rest) (readString (.char '"' :: rest) rest) :=
      .of_eq rfl fun _ => trivial
    exact hstring.map fun t rest _ => .text t
  · have hwords : (words (limits.widened digits).nanMark) = words limits.nanMark := rfl
    rw [hwords]
    split
    · rename_i found hfound
      obtain ⟨⟨word, value⟩, hmem, hword⟩ := List.exists_of_findSome?_eq_some hfound
      obtain ⟨rest, -, rfl⟩ := Option.map_eq_some_iff.mp hword
      have hvalues : ∀ w ∈ words limits.nanMark, Fits limits w.2 := by
        simp only [words, List.forall_mem_cons, List.not_mem_nil, false_imp_iff, implies_true, and_true]
        exact ⟨.null, .bool true, .bool false, fits_float limits _, fits_float limits _, fits_float limits _⟩
      rintro a rest' ⟨⟩
      exact ⟨rfl, hvalues _ hmem⟩
    · exact narrowed_readNumber h _

theorem narrowed_readItems {α : Type} {P : α → Prop} {close : Char} {item item' : Reader α}
    (hitem : ∀ s, Narrowed P (item s) (item' s)) (fuel : Nat) (s : Text) :
    Narrowed (fun xs => ∀ x ∈ xs, P x) (readItems close item fuel s) (readItems close item' fuel s) := by
  induction fuel generalizing s with
  | zero => exact .of_error rfl
  | succ fuel ih =>
    rw [readItems, readItems]
    refine (hitem s).bind fun x rest hx => ?_
    dsimp only
    split
    · exact .of_error rfl
    · split
      · rintro a rest' ⟨⟩
        exact ⟨rfl, List.forall_mem_singleton.mpr hx⟩
      · split
        · refine (ih _).bind fun xs rest hxs => ?_
          rintro a rest' ⟨⟩
          exact ⟨rfl, List.forall_mem_cons.mpr ⟨hx, hxs⟩⟩
        · exact .of_error rfl

theorem narrowed_readBracketed {α : Type} {P : α → Prop} {close : Char} {item item' : Reader α}
    (hitem : ∀ s, Narrowed P (item s) (item' s)) (bound : Nat) (s : Text) :
    Narrowed (fun xs => ∀ x ∈ xs, P x) (readBracketed close item bound s) (readBracketed close item' bound s) := by
  unfold readBracketed
  split
  · exact narrowed_readItems hitem bound _
  · split
    · rintro a rest' ⟨⟩
      exact ⟨rfl, List.forall_mem_nil _⟩
    · exact narrowed_readItems hitem bound _

theorem narrowed_readMember {P : Json → Prop} {item item' : Reader Json} (hitem : ∀ s, Narrowed P (item s) (item' s))
    (s : Text) : Narrowed (fun m : Text × Json => P m.2) (readMember item s) (readMember item' s) := by
  have hkey : Narrowed (fun _ => True) (readKey s) (readKey s) := .of_eq rfl fun _ => trivial
  refine hkey.bind fun key rest _ => (hitem rest).bind fun x rest' hx => ?_
  rintro a rest'' ⟨⟩
  exact ⟨rfl, hx⟩

theorem narrowed_readValue (h : limits.intDigits ≤ digits) (bound depth : Nat) (s : Text) :
    Narrowed (Fits limits) (readValue limits bound depth s) (readValue (limits.widened digits) bound depth s) := by
  induction depth generalizing s with
  | zero =>
    unfold readValue
    split
    · exact .of_error rfl
    · exact .of_error rfl
    · exact narrowed_readScalar h s
  | succ depth ih =>
    unfold readValue
    split
    · refine (narrowed_readBracketed ih bound _).map fun xs rest hxs => ?_
      show (array xs).finite.Readable limits
      rw [finite_array]
      exact .array (List.forall_mem_map.mpr hxs)
    · refine (narrowed_readBracketed (narrowed_readMember ih) bound _).map fun members rest hmembers => ?_
      show (object members).finite.Readable limits
      rw [finite_object]
      exact .object (List.forall_mem_map.mpr hmembers)
    · exact narrowed_readScalar h s

/-- What a text is read as keeps within the limits, and is what it is read as under wider ones. -/
theorem narrowed_read (h : limits.intDigits ≤ digits) {s : Text} {x : Json} (hread : read limits s = .ok x) :
    read (limits.widened digits) s = .ok x ∧ x.finite.Readable limits := by
  have hvalue := narrowed_readValue h (s.length + 1) limits.depth (skipSpace s)
  unfold read at hread ⊢
  split at hread
  · cases hread
  · rename_i hmark
    rw [if_neg hmark]
    cases hnarrow : readValue limits (s.length + 1) limits.depth (skipSpace s) with
    | error e =>
      rw [hnarrow] at hread
      cases hread
    | ok found =>
      obtain ⟨hwide, hfits⟩ := hvalue found.1 found.2 hnarrow
      have hdepth : (limits.widened digits).depth = limits.depth := rfl
      rw [hnarrow] at hread
      rw [hdepth, hwide]
      refine ⟨hread, ?_⟩
      simp only [bind, Except.bind] at hread
      split at hread
      · cases hread
        exact hfits
      · cases hread

/-- A document is read back from what is written for it exactly if that keeps within the limits. -/
theorem read_write_eq_ok_iff (hplaces : limits.Takes 17) (x : Json) (indent : Option Nat) (y : Json) :
    read limits (x.write indent) = .ok y ↔ x.depth ≤ limits.depth ∧ x.finite.Readable limits ∧ y = x.finite := by
  constructor
  · intro hread
    obtain ⟨most, hmost⟩ := exists_readable_finite limits x
    let digits := max most limits.intDigits
    have hreadable : x.finite.Readable (limits.widened digits) := hmost digits (Nat.le_max_left _ _)
    obtain ⟨hwide, hfits⟩ := narrowed_read (Nat.le_max_right most limits.intDigits) hread
    have htext := documentText_write (limits.takes_widened digits 17) hreadable indent
    rw [write_finite] at htext
    rw [read_of_documentText htext hreadable, depth_finite] at hwide
    by_cases hdepth : x.depth ≤ (limits.widened digits).depth
    · rw [if_pos hdepth, Except.ok.injEq] at hwide
      subst hwide
      rw [finite_finite] at hfits
      exact ⟨hdepth, hfits, rfl⟩
    · rw [if_neg hdepth] at hwide
      cases hwide
  · rintro ⟨hdepth, hreadable, rfl⟩
    rw [← write_finite, read_write hplaces hreadable]
    rwa [depth_finite]

end FieldForest.Json
