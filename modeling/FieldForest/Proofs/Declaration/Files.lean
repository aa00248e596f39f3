/-
  FieldForest.Proofs.Declaration.Files — a file declares what its text does.

  A file is read as its bytes are decoded, with its line ends unified. What comes of that is what
  the decoded text itself declares, with its lines ended as they are in the file, and a file whose
  bytes encode no text declares nothing.

  Proved:
  - `read_unifyNewlines_eq_ok_iff`: how its lines end makes no difference to what a text declares.
  - `ofFile_eq_ok_iff`: what is read from a file is what the text declares that its bytes encode.
-/
import FieldForest.Declaration.File
import FieldForest.Proofs.Declaration.Calls
import FieldForest.Proofs.Declaration.Grammar
import FieldForest.Proofs.Json.LineEnds
import FieldForest.Proofs.Text.Utf8

namespace FieldForest.Declaration

section

variable {stack : Stack} {access : Path → Except FileError (List UInt8)} {spelling : Text} {bytes : List UInt8}

theorem read_unifyNewlines_eq_ok_iff (source : Text) (d : Declaration) :
    read stack source.unifyNewlines = .ok d ↔ read stack source = .ok d := by
  rw [read_eq_ok_iff_document, read_eq_ok_iff_document, Json.read_unifyNewlines rfl]
  simp only [mapError_eq_ok_iff]

theorem result_readTraced (source : Text) : (readTraced stack source).result = read stack source := by
  rw [readTraced, Traced.result_bind, Traced.result_ofExcept]
  cases read stack source <;> rfl

/-- A file is read as its text is, if its path names one. -/
theorem result_ofFile (access : Path → Except FileError (List UInt8)) (spelling : Text) :
    (ofFile stack access spelling).result =
      match (Path.ofText spelling).fault? with
      | some fault => .error (.unnamed fault)
      | none => (do
        let bytes ← (access (.ofText spelling)).mapError (.unavailable (.ofText spelling))
        let text ← (textOfBytes bytes).mapError (.undecodable spelling)
        (read stack text).mapError .undeclared) := by
  rw [ofFile, Traced.result_report_bind]
  dsimp only
  cases (Path.ofText spelling).fault? with
  | some fault => rfl
  | none =>
    dsimp only
    simp only [Traced.result_bind, Traced.result_ofExcept, Traced.result_mapError, result_readTraced]

theorem result_ofFile_of_bytes (hnamed : (Path.ofText spelling).fault? = none)
    (hbytes : access (.ofText spelling) = .ok bytes) :
    (ofFile stack access spelling).result = (do
      let text ← (Utf8.decode bytes).mapError (.undecodable spelling)
      (read stack text.unifyNewlines).mapError .undeclared) := by
  rw [result_ofFile, hnamed, hbytes]
  dsimp only [bind, Except.bind, mapError_ok]
  unfold textOfBytes
  cases Utf8.decode bytes <;> rfl

end

/-- What is read from a file is what the text declares that its bytes encode, whatever its lines end
    in. A file whose bytes encode no text is malformed. -/
theorem ofFile_eq_ok_iff (stack : Stack) {access : Path → Except FileError (List UInt8)} {spelling : Text}
    {bytes : List UInt8} (hnamed : (Path.ofText spelling).fault? = none)
    (hbytes : access (.ofText spelling) = .ok bytes) :
    (∀ d, (ofFile stack access spelling).result = .ok d ↔
      ∃ cs : List Char, bytes = cs.flatMap String.utf8EncodeChar ∧ read stack (Text.ofChars cs) = .ok d) ∧
    ((∀ cs : List Char, bytes ≠ cs.flatMap String.utf8EncodeChar) →
      ∃ fault, (ofFile stack access spelling).result = .error (.undecodable spelling fault)) := by
  rw [result_ofFile_of_bytes hnamed hbytes]
  constructor
  · intro d
    simp only [bind_eq_ok_iff, mapError_eq_ok_iff, Utf8.decode_eq_ok_iff, read_unifyNewlines_eq_ok_iff]
    constructor
    · rintro ⟨source, ⟨cs, rfl, hcs⟩, hd⟩
      exact ⟨cs, hcs, hd⟩
    · rintro ⟨cs, hcs, hd⟩
      exact ⟨_, ⟨cs, rfl, hcs⟩, hd⟩
  · intro hno
    cases hdecode : Utf8.decode bytes with
    | ok source =>
      obtain ⟨cs, -, hcs⟩ := Utf8.decode_eq_ok_iff.mp hdecode
      exact absurd hcs (hno cs)
    | error fault => exact ⟨fault, rfl⟩

/-- A file whose lines end in every way there is. -/
def threeLines : List Char := "\x7b\"requires\":\r\n[\"a\",\r\"int\"]\n\x7d".toList

theorem ofFile_threeLines :
    (ofFile .usual (fun _ => .ok (threeLines.flatMap String.utf8EncodeChar)) "a.json").result =
        .ok (.single (.statement "requires" [.text "a", .text "int"])) ∧
      ∃ fault, (ofFile .usual (fun _ => .ok [0x7B, 0xFF]) "a.json").result = .error (.undecodable "a.json" fault) := by
  have hdocument : Json.read Stack.usual.jsonLimits (Text.ofChars threeLines) =
      .ok (.object [("requires", .array [.text "a", .text "int"])]) := by rfl
  have hdeclares : read .usual (Text.ofChars threeLines) =
      .ok (.single (.statement "requires" [.text "a", .text "int"])) := by
    refine read_eq_ok_iff_document.mpr ⟨_, hdocument, ofJson_of_describes (by decide) ?_⟩
    exact .single (.statement (by decide) (by decide) (.plain Call.not_holdsBody_bare))
  have hnamed : (Path.ofText "a.json").fault? = none := rfl
  have hbroken : ∀ cs : List Char, [0x7B, 0xFF] ≠ cs.flatMap String.utf8EncodeChar := by
    intro cs hcs
    have hdecoded := Utf8.decode_eq_ok_iff.mpr ⟨cs, rfl, hcs⟩
    cases hdecoded
  exact ⟨((ofFile_eq_ok_iff .usual hnamed rfl).1 _).mpr ⟨threeLines, rfl, hdeclares⟩,
    (ofFile_eq_ok_iff .usual hnamed rfl).2 hbroken⟩

end FieldForest.Declaration
