/-
  FieldForest.Proofs.Text.Utf8 — the bytes that are read as text are those that encode it.

  Inside a character the reader owes bytes. `Finishes` is what may come: a byte for each range,
  and the number that they spell together. A first byte and what finishes it are the encoding of
  a character, and the encoding of every character is read so.

  Proved:
  - `decodeFrom_some_eq_ok_iff`: a character that has begun is read if it is finished.
  - `encoded_of_lead?` / `exists_lead?`: what a first byte and the bytes that finish it encode.
  - `decode_eq_ok_iff`: bytes are read as a text exactly if they encode its characters one after
    the other.
  - `decode_encode`: the bytes of a text give it back.
-/
import FieldForest.Text.Utf8
import FieldForest.Trace
import Mathlib.Tactic.SplitIfs
import Mathlib.Tactic.ByContra

namespace FieldForest.Utf8

/-! ## Characters that have begun -/

/-- The bytes that finish a character that has begun, and its number. -/
inductive Finishes : Pending → List UInt8 → Nat → Prop
  | last {bytes : List UInt8} {value low high : Nat} {b : UInt8} : low ≤ b.toNat → b.toNat ≤ high →
      Finishes ⟨bytes, value, [(low, high)]⟩ [b] (value * 0x40 + (b.toNat - 0x80))
  | more {bytes tail : List UInt8} {value low high n : Nat} {r : Nat × Nat} {owed : List (Nat × Nat)} {b : UInt8} :
      low ≤ b.toNat → b.toNat ≤ high →
      Finishes ⟨bytes ++ [b], value * 0x40 + (b.toNat - 0x80), r :: owed⟩ tail n →
      Finishes ⟨bytes, value, (low, high) :: r :: owed⟩ (b :: tail) n

variable {position : Nat} {bytes : List UInt8} {t : Text}

/-- A character that has begun is read if the bytes finish it, and then the text behind it is. -/
theorem decodeFrom_some_eq_ok_iff {p : Pending} :
    decodeFrom position (some p) bytes = .ok t ↔
      ∃ tail n rest u, Finishes p tail n ∧ bytes = tail ++ rest ∧ t = .char (Char.ofNat n) :: u ∧
        decodeFrom (position + tail.length) none rest = .ok u := by
  induction bytes generalizing position p with
  | nil =>
    constructor
    · intro h
      cases h
    · rintro ⟨tail, n, rest, u, hp, hbytes, -⟩
      cases hp <;> cases hbytes
  | cons b bytes ih =>
    obtain ⟨seen, value, owed⟩ := p
    rcases owed with _ | ⟨⟨low, high⟩, _ | ⟨r, owed⟩⟩
    · constructor
      · intro h
        cases h
      · rintro ⟨tail, n, rest, u, hp, -⟩
        cases hp
    · rw [decodeFrom]
      dsimp only
      constructor
      · intro h
        split_ifs at h with hin
        obtain ⟨u, hu, rfl⟩ := map_eq_ok_iff.mp h
        exact ⟨[b], _, bytes, u, .last hin.1 hin.2, rfl, rfl, hu⟩
      · rintro ⟨tail, n, rest, u, hp, hbytes, rfl, hu⟩
        cases hp with
        | last hlow hhigh =>
          cases hbytes
          rw [if_pos ⟨hlow, hhigh⟩]
          exact map_eq_ok_iff.mpr ⟨u, hu, rfl⟩
    · rw [decodeFrom]
      dsimp only
      constructor
      · intro h
        split_ifs at h with hin
        obtain ⟨tail, n, rest, u, hp, rfl, rfl, hu⟩ := ih.mp h
        refine ⟨b :: tail, n, rest, u, .more hin.1 hin.2 hp, rfl, rfl, ?_⟩
        rwa [List.length_cons, Nat.add_comm tail.length, ← Nat.add_assoc]
      · rintro ⟨tail, n, rest, u, hp, hbytes, rfl, hu⟩
        cases hp with
        | more hlow hhigh hp =>
          cases hbytes
          rw [if_pos ⟨hlow, hhigh⟩]
          refine ih.mpr ⟨_, n, rest, u, hp, rfl, rfl, ?_⟩
          rwa [List.length_cons, Nat.add_comm (List.length _), ← Nat.add_assoc] at hu

/-! ## Characters and their bytes -/

theorem toNat_ofNat_of_valid {n : Nat} (h : n.isValidChar) : (Char.ofNat n).toNat = n := by
  unfold Char.ofNat
  rw [dif_pos h]
  rfl

section

variable {b b₁ b₂ b₃ : UInt8} {n : Nat}

/-- A byte is known by its number. -/
theorem ofNat_eq_of_toNat (h : n = b.toNat) : UInt8.ofNat n = b := by rw [h, UInt8.ofNat_toNat]

theorem encode_one (h : b.toNat < 0x80) : String.utf8EncodeChar (Char.ofNat b.toNat) = [b] := by
  have hn : (Char.ofNat b.toNat).toNat = b.toNat := toNat_ofNat_of_valid (.inl (by omega))
  unfold String.utf8EncodeChar
  rw [Char.toNat_val, hn]
  dsimp only
  rw [if_pos (by omega), UInt8.ofNat_toNat]

theorem encode_two (hn : n.isValidChar) (hlow : 0x80 ≤ n) (hhigh : n < 0x800)
    (h : n / 0x40 + 0xC0 = b.toNat) (h₁ : n % 0x40 + 0x80 = b₁.toNat) :
    String.utf8EncodeChar (Char.ofNat n) = [b, b₁] := by
  unfold String.utf8EncodeChar
  rw [Char.toNat_val, toNat_ofNat_of_valid hn]
  dsimp only
  rw [if_neg (by omega), if_pos (by omega), ofNat_eq_of_toNat (b := b) (by omega), ofNat_eq_of_toNat h₁]

theorem encode_three (hn : n.isValidChar) (hlow : 0x800 ≤ n) (hhigh : n < 0x10000)
    (h : n / 0x1000 + 0xE0 = b.toNat) (h₁ : n / 0x40 % 0x40 + 0x80 = b₁.toNat) (h₂ : n % 0x40 + 0x80 = b₂.toNat) :
    String.utf8EncodeChar (Char.ofNat n) = [b, b₁, b₂] := by
  unfold String.utf8EncodeChar
  rw [Char.toNat_val, toNat_ofNat_of_valid hn]
  dsimp only
  rw [if_neg (by omega), if_neg (by omega), if_pos (by omega), ofNat_eq_of_toNat (b := b) (by omega),
    ofNat_eq_of_toNat h₁, ofNat_eq_of_toNat h₂]

theorem encode_four (hn : n.isValidChar) (hlow : 0x10000 ≤ n)
    (h : n / 0x40000 + 0xF0 = b.toNat) (h₁ : n / 0x1000 % 0x40 + 0x80 = b₁.toNat)
    (h₂ : n / 0x40 % 0x40 + 0x80 = b₂.toNat) (h₃ : n % 0x40 + 0x80 = b₃.toNat) :
    String.utf8EncodeChar (Char.ofNat n) = [b, b₁, b₂, b₃] := by
  have hmost : n < 0x110000 := by rcases hn with hn | hn <;> omega
  unfold String.utf8EncodeChar
  rw [Char.toNat_val, toNat_ofNat_of_valid hn]
  dsimp only
  rw [if_neg (by omega), if_neg (by omega), if_neg (by omega), ofNat_eq_of_toNat (b := b) (by omega),
    ofNat_eq_of_toNat h₁, ofNat_eq_of_toNat h₂, ofNat_eq_of_toNat h₃]

/-! First bytes, by how many bytes they owe. The range of the next byte rules out numbers that take
fewer bytes, surrogates, and numbers past the last character. -/

theorem lead?_two (hlow : 0xC2 ≤ b.toNat) (hhigh : b.toNat < 0xE0) :
    lead? b = some ⟨[b], b.toNat - 0xC0, [(0x80, 0xBF)]⟩ := by
  unfold lead?
  dsimp only
  rw [if_neg (by omega), if_pos hhigh]

theorem lead?_three (hlow : 0xE0 ≤ b.toNat) (hhigh : b.toNat < 0xF0) :
    ∃ low high, lead? b = some ⟨[b], b.toNat - 0xE0, [(low, high), (0x80, 0xBF)]⟩ ∧
      ∀ m, low ≤ m ∧ m ≤ high ↔
        0x80 ≤ m ∧ m ≤ 0xBF ∧ (b.toNat = 0xE0 → 0xA0 ≤ m) ∧ (b.toNat = 0xED → m ≤ 0x9F) := by
  unfold lead?
  dsimp only
  rw [if_neg (by omega), if_neg (by omega)]
  by_cases hfirst : b.toNat = 0xE0
  · exact ⟨0xA0, 0xBF, by rw [if_pos hfirst, hfirst], by omega⟩
  · by_cases hsurrogates : b.toNat = 0xED
    · exact ⟨0x80, 0x9F, by rw [if_neg hfirst, if_pos hsurrogates, hsurrogates], by omega⟩
    · exact ⟨0x80, 0xBF, by rw [if_neg hfirst, if_neg hsurrogates, if_pos hhigh], by omega⟩

theorem lead?_four (hlow : 0xF0 ≤ b.toNat) (hhigh : b.toNat ≤ 0xF4) :
    ∃ low high, lead? b = some ⟨[b], b.toNat - 0xF0, [(low, high), (0x80, 0xBF), (0x80, 0xBF)]⟩ ∧
      ∀ m, low ≤ m ∧ m ≤ high ↔
        0x80 ≤ m ∧ m ≤ 0xBF ∧ (b.toNat = 0xF0 → 0x90 ≤ m) ∧ (b.toNat = 0xF4 → m ≤ 0x8F) := by
  unfold lead?
  dsimp only
  rw [if_neg (by omega), if_neg (by omega), if_neg (by omega), if_neg (by omega), if_neg (by omega)]
  by_cases hfirst : b.toNat = 0xF0
  · exact ⟨0x90, 0xBF, by rw [if_pos hfirst, hfirst], by omega⟩
  · by_cases hlast : b.toNat = 0xF4
    · exact ⟨0x80, 0x8F, by rw [if_neg hfirst, if_neg (by omega), if_pos hlast, hlast], by omega⟩
    · exact ⟨0x80, 0xBF, by rw [if_neg hfirst, if_pos (by omega)], by omega⟩

theorem lead?_eq_none (h : b.toNat < 0xC2 ∨ 0xF4 < b.toNat) : lead? b = none := by
  unfold lead?
  dsimp only
  rcases h with h | h
  · rw [if_pos h]
  · rw [if_neg (by omega), if_neg (by omega), if_neg (by omega), if_neg (by omega), if_neg (by omega),
      if_neg (by omega), if_neg (by omega), if_neg (by omega)]

end

/-- A first byte of several and the bytes that finish it encode a character. -/
theorem encoded_of_lead? {b : UInt8} {p : Pending} {tail : List UInt8} {n : Nat} (hlead : lead? b = some p)
    (h : Finishes p tail n) : String.utf8EncodeChar (Char.ofNat n) = b :: tail := by
  by_cases hnone : b.toNat < 0xC2 ∨ 0xF4 < b.toNat
  · cases hlead.symm.trans (lead?_eq_none hnone)
  by_cases htwo : b.toNat < 0xE0
  · cases hlead.symm.trans (lead?_two (by omega) htwo)
    cases h with
    | last hlow hhigh => exact encode_two (.inl (by omega)) (by omega) (by omega) (by omega) (by omega)
  by_cases hthree : b.toNat < 0xF0
  · obtain ⟨low, high, hp, hrange⟩ := lead?_three (by omega) hthree
    cases hlead.symm.trans hp
    cases h with
    | more hlow hhigh h =>
      have := (hrange _).mp ⟨hlow, hhigh⟩
      cases h with
      | last =>
        refine encode_three ?_ (by omega) (by omega) (by omega) (by omega) (by omega)
        unfold Nat.isValidChar
        omega
  · obtain ⟨low, high, hp, hrange⟩ := lead?_four (b := b) (by omega) (by omega)
    cases hlead.symm.trans hp
    cases h with
    | more hlow hhigh h =>
      have := (hrange _).mp ⟨hlow, hhigh⟩
      cases h with
      | more _ _ h =>
        cases h with
        | last => exact encode_four (.inr (by omega)) (by omega) (by omega) (by omega) (by omega) (by omega)

/-- A byte with a given number. -/
theorem exists_byte {m : Nat} (h : m < 0x100) : ∃ b : UInt8, b.toNat = m :=
  ⟨UInt8.ofNat m, UInt8.toNat_ofNat_of_lt' h⟩

/-- The encoding of a character that takes more than a byte begins as one that is read. -/
theorem exists_lead? {c : Char} (h : 0x80 ≤ c.toNat) :
    ∃ b p tail, lead? b = some p ∧ Finishes p tail c.toNat ∧ String.utf8EncodeChar c = b :: tail := by
  have hvalid : c.toNat.isValidChar := c.valid
  have hmost : c.toNat < 0x110000 := by rcases hvalid with hn | hn <;> omega
  obtain ⟨b₃, h₃⟩ := exists_byte (m := c.toNat % 0x40 + 0x80) (by omega)
  obtain ⟨b₂, h₂⟩ := exists_byte (m := c.toNat / 0x40 % 0x40 + 0x80) (by omega)
  obtain ⟨b₁, h₁⟩ := exists_byte (m := c.toNat / 0x1000 % 0x40 + 0x80) (by omega)
  by_cases htwo : c.toNat < 0x800
  · obtain ⟨b, hb⟩ := exists_byte (m := c.toNat / 0x40 + 0xC0) (by omega)
    refine ⟨b, _, [b₃], lead?_two (by omega) (by omega), ?_, ?_⟩
    · have hn : c.toNat = (b.toNat - 0xC0) * 0x40 + (b₃.toNat - 0x80) := by omega
      rw [hn]
      exact .last (by omega) (by omega)
    · rw [← encode_two hvalid h htwo hb.symm h₃.symm, Char.ofNat_toNat]
  by_cases hthree : c.toNat < 0x10000
  · obtain ⟨b, hb⟩ := exists_byte (m := c.toNat / 0x1000 + 0xE0) (by omega)
    obtain ⟨low, high, hp, hrange⟩ := lead?_three (b := b) (by omega) (by omega)
    refine ⟨b, _, [b₂, b₃], hp, ?_, ?_⟩
    · have hn : c.toNat = ((b.toNat - 0xE0) * 0x40 + (b₂.toNat - 0x80)) * 0x40 + (b₃.toNat - 0x80) := by omega
      have hin : low ≤ b₂.toNat ∧ b₂.toNat ≤ high := (hrange _).mpr (by unfold Nat.isValidChar at hvalid; omega)
      rw [hn]
      exact .more hin.1 hin.2 (.last (by omega) (by omega))
    · rw [← encode_three hvalid (by omega) hthree hb.symm h₂.symm h₃.symm, Char.ofNat_toNat]
  · obtain ⟨b, hb⟩ := exists_byte (m := c.toNat / 0x40000 + 0xF0) (by omega)
    obtain ⟨low, high, hp, hrange⟩ := lead?_four (b := b) (by omega) (by omega)
    refine ⟨b, _, [b₁, b₂, b₃], hp, ?_, ?_⟩
    · have hn : c.toNat = (((b.toNat - 0xF0) * 0x40 + (b₁.toNat - 0x80)) * 0x40 + (b₂.toNat - 0x80)) * 0x40 +
          (b₃.toNat - 0x80) := by omega
      have hin : low ≤ b₁.toNat ∧ b₁.toNat ≤ high := (hrange _).mpr (by omega)
      rw [hn]
      exact .more hin.1 hin.2 (.more (by omega) (by omega) (.last (by omega) (by omega)))
    · rw [← encode_four hvalid (by omega) hb.symm h₁.symm h₂.symm h₃.symm, Char.ofNat_toNat]

/-! ## Texts -/

theorem decodeFrom_none_of_lead? {b : UInt8} {p : Pending} (hb : 0x80 ≤ b.toNat) (hlead : lead? b = some p) :
    decodeFrom position none (b :: bytes) = decodeFrom (position + 1) (some p) bytes := by
  rw [decodeFrom, if_neg (by omega), hlead]

/-- What is read encodes characters. -/
theorem exists_chars_of_decodeFrom {position : Nat} {bytes : List UInt8} {t : Text}
    (h : decodeFrom position none bytes = .ok t) :
    ∃ cs, t = Text.ofChars cs ∧ bytes = cs.flatMap String.utf8EncodeChar := by
  match bytes with
  | [] =>
    cases h
    exact ⟨[], rfl, rfl⟩
  | b :: bytes =>
    by_cases hascii : b.toNat < 0x80
    · rw [decodeFrom, if_pos hascii] at h
      obtain ⟨u, hu, rfl⟩ := map_eq_ok_iff.mp h
      obtain ⟨cs, rfl, hbytes⟩ := exists_chars_of_decodeFrom hu
      refine ⟨Char.ofNat b.toNat :: cs, rfl, ?_⟩
      rw [List.flatMap_cons, encode_one hascii, ← hbytes]
      rfl
    · cases hlead : lead? b with
      | none =>
        rw [decodeFrom, if_neg hascii, hlead] at h
        cases h
      | some p =>
        rw [decodeFrom_none_of_lead? (by omega) hlead] at h
        obtain ⟨tail, n, rest, u, hp, hbytes, rfl, hu⟩ := decodeFrom_some_eq_ok_iff.mp h
        have hshorter : rest.length ≤ bytes.length := by simp [hbytes]
        obtain ⟨cs, rfl, hrest⟩ := exists_chars_of_decodeFrom hu
        refine ⟨Char.ofNat n :: cs, rfl, ?_⟩
        rw [List.flatMap_cons, encoded_of_lead? hlead hp, ← hrest, hbytes]
        rfl
termination_by bytes.length

/-- What encodes characters is read as them. -/
theorem decodeFrom_flatMap_encode (position : Nat) (cs : List Char) :
    decodeFrom position none (cs.flatMap String.utf8EncodeChar) = .ok (Text.ofChars cs) := by
  induction cs generalizing position with
  | nil => rfl
  | cons c cs ih =>
    rw [List.flatMap_cons]
    by_cases hascii : c.toNat < 0x80
    · obtain ⟨b, hb⟩ := exists_byte (m := c.toNat) (by omega)
      have hencode : String.utf8EncodeChar c = [b] := by
        rw [← encode_one (b := b) (by omega), hb, Char.ofNat_toNat]
      rw [hencode, List.singleton_append, decodeFrom, if_pos (by omega), ih, hb, Char.ofNat_toNat]
      rfl
    · obtain ⟨b, p, tail, hlead, hp, hencode⟩ := exists_lead? (c := c) (by omega)
      have hfirst : 0x80 ≤ b.toNat := by
        by_contra hsmall
        cases hlead.symm.trans (lead?_eq_none (.inl (by omega)))
      rw [hencode, List.cons_append, decodeFrom_none_of_lead? hfirst hlead]
      refine decodeFrom_some_eq_ok_iff.mpr ⟨tail, _, _, Text.ofChars cs, hp, rfl, ?_, ih _⟩
      rw [Char.ofNat_toNat]
      rfl

/-- Bytes are read as a text exactly if they encode its characters one after the other. -/
theorem decode_eq_ok_iff :
    decode bytes = .ok t ↔ ∃ cs, t = Text.ofChars cs ∧ bytes = cs.flatMap String.utf8EncodeChar := by
  constructor
  · exact exists_chars_of_decodeFrom
  · rintro ⟨cs, rfl, rfl⟩
    exact decodeFrom_flatMap_encode 0 cs

theorem exists_chars_of_hasLoneSurrogate (h : t.hasLoneSurrogate = false) : ∃ cs, t = Text.ofChars cs := by
  induction t with
  | nil => exact ⟨[], rfl⟩
  | cons c t ih =>
    rw [Text.hasLoneSurrogate, List.any_cons, Bool.or_eq_false_iff] at h
    obtain ⟨hc, ht⟩ := h
    obtain ⟨cs, rfl⟩ := ih ht
    cases c with
    | char c => exact ⟨c :: cs, rfl⟩
    | loneSurrogate n => cases hc

/-- The bytes of a text give the text back, unless there are halves of surrogate pairs in it. -/
theorem decode_encode (h : t.hasLoneSurrogate = false) : decode (encode t) = .ok t := by
  obtain ⟨cs, rfl⟩ := exists_chars_of_hasLoneSurrogate h
  refine decode_eq_ok_iff.mpr ⟨cs, rfl, ?_⟩
  rw [encode, Text.ofChars, List.flatMap_map]

end FieldForest.Utf8
