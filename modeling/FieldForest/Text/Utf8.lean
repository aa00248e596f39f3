/-
  FieldForest.Text.Utf8 — bytes read as UTF-8, and the bytes of a text.

  The reader is one step per byte. Between characters it holds nothing; inside one it holds
  the bytes seen, the number they spell so far, and the range in which each byte still owed
  has to lie, so that overlong forms, surrogates and numbers past the last code point are
  refused at the first byte that rules them out. A refusal names the bytes that cannot be
  read: the byte that starts no character, or the well-formed beginning of a character that
  the next byte does not continue.
-/
import FieldForest.Text.Basic

namespace FieldForest.Utf8

inductive Reason where
  | invalidStart
  | invalidContinuation
  | unexpectedEnd
deriving DecidableEq

/-- The bytes that cannot be read, where they stand, and why. -/
structure Fault where
  start : Nat
  bytes : List UInt8
  reason : Reason

def Reason.message : Reason → Text
  | .invalidStart => "invalid start byte"
  | .invalidContinuation => "invalid continuation byte"
  | .unexpectedEnd => "unexpected end of data"

def Fault.message (f : Fault) : Text :=
  "'utf-8' codec can't decode " ++
    (match f.bytes with
      | [b] => "byte 0x" ++ Text.ofHex 2 b.toNat ++ " in position " ++ Text.ofNat f.start
      | bytes => "bytes in position " ++ Text.ofNat f.start ++ "-" ++ Text.ofNat (f.start + bytes.length - 1)) ++
    ": " ++ f.reason.message

/-- A character that has begun: its bytes, its number so far, the ranges of the bytes owed. -/
structure Pending where
  bytes : List UInt8
  value : Nat
  owed : List (Nat × Nat)

/-- What a first byte of several begins. -/
def lead? (b : UInt8) : Option Pending :=
  let n := b.toNat
  let tail := (0x80, 0xBF)
  let begin (value : Nat) (owed : List (Nat × Nat)) := some (⟨[b], value, owed⟩ : Pending)
  if n < 0xC2 then none
  else if n < 0xE0 then begin (n - 0xC0) [tail]
  else if n = 0xE0 then begin 0 [(0xA0, 0xBF), tail]
  else if n = 0xED then begin 0xD [(0x80, 0x9F), tail]
  else if n < 0xF0 then begin (n - 0xE0) [tail, tail]
  else if n = 0xF0 then begin 0 [(0x90, 0xBF), tail, tail]
  else if n < 0xF4 then begin (n - 0xF0) [tail, tail, tail]
  else if n = 0xF4 then begin 4 [(0x80, 0x8F), tail, tail]
  else none

/-- Reads on from byte `position`, where a character may have begun. -/
def decodeFrom (position : Nat) : Option Pending → List UInt8 → Except Fault Text
  | none, [] => .ok []
  | some p, [] => .error ⟨position - p.bytes.length, p.bytes, .unexpectedEnd⟩
  | none, b :: rest =>
    if b.toNat < 0x80 then
      (decodeFrom (position + 1) none rest).map (.char (Char.ofNat b.toNat) :: ·)
    else match lead? b with
      | some p => decodeFrom (position + 1) (some p) rest
      | none => .error ⟨position, [b], .invalidStart⟩
  | some p, b :: rest =>
    match p.owed with
    | [] => .error ⟨position - p.bytes.length, p.bytes, .invalidContinuation⟩
    | (low, high) :: owed =>
      if low ≤ b.toNat ∧ b.toNat ≤ high then
        let value := p.value * 0x40 + (b.toNat - 0x80)
        match owed with
        | [] => (decodeFrom (position + 1) none rest).map (.char (Char.ofNat value) :: ·)
        | _ => decodeFrom (position + 1) (some ⟨p.bytes ++ [b], value, owed⟩) rest
      else .error ⟨position - p.bytes.length, p.bytes, .invalidContinuation⟩

def decode (bytes : List UInt8) : Except Fault Text := decodeFrom 0 none bytes

/-- The bytes of a text; a half of a surrogate pair has none. -/
def encode (t : Text) : List UInt8 := t.flatMap fun
  | .char c => String.utf8EncodeChar c
  | .loneSurrogate _ => []

end FieldForest.Utf8
