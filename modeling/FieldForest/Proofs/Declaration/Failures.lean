/-
  FieldForest.Proofs.Declaration.Failures — the errors of reading that no declaration accounts for.

  Whatever a text holds, it is read as a declaration or found malformed, with two exceptions: a
  whole number in it has more digits than are read, or its JSON is read and then the stack gives
  out. Neither says of the text that it is no declaration, and a run of the command line breaks
  off with either of them.

  Proved:
  - `read_numeral_too_long`: every whole number that is too long, alone in a text, is not read.
  - `read_undisplayed`: for a list that can be no item and nests too deep to be displayed, the stack gives out.
  - `read_blocksWithin`: so it does for blocks that nest too deep, although they are declarations.
  - `reads_or_malformed_or_stops`: only texts of these kinds give such an error, and a file breaks
    a run off only if its text does.
  - `ones_too_long`: the shortest number that gives one.
-/
import FieldForest.Command.Run
import FieldForest.Proofs.Declaration.Calls
import FieldForest.Proofs.Declaration.Files
import FieldForest.Proofs.Json.Consumption

namespace FieldForest

namespace Json

/-- A whole number that is too long is no document, if nothing but it stands in the text. -/
theorem read_numeral_too_long {limits : Limits} (hplaces : limits.places = none) (negative : Bool) {ds : List Char}
    (hd : IsNumeral ds) (hlong : limits.intDigits < ds.length) :
    read limits (signed negative (Text.ofChars ds)) = .error (.tooManyDigits ds.length) := by
  have hint := integerPart?_append hd EndsValue.nothing.spanDigits_eq
  rw [List.append_nil] at hint
  have hnumber : readNumber limits (signed negative (Text.ofChars ds)) = .error (.tooManyDigits ds.length) := by
    rw [readNumber_signed hint EndsValue.nothing.fractionPart_eq (Limits.takes_of_places hplaces _),
      EndsValue.nothing.exponentPart?_eq, if_pos ⟨rfl, rfl⟩, if_pos hlong]
  obtain ⟨c, cs, rfl⟩ := List.exists_cons_of_ne_nil hd.ne_nil
  have hc : c.isDigit = true := hd.digits c List.mem_cons_self
  have hbegins : BeginsValue (signed negative (Text.ofChars (c :: cs))) := beginsValue_signed hc negative _
  have hvalue (bound depth : Nat) : readValue limits bound depth (signed negative (Text.ofChars (c :: cs))) =
      .error (.tooManyDigits (c :: cs).length) := (readValue_signed hc negative _).trans hnumber
  rw [read, if_neg hbegins.head?_ne, hbegins.skipSpace_eq, hvalue]
  rfl

end Json

namespace Declaration

open Call (listsWithin)

variable {stack : Stack}

/-! ## Where the stack gives out -/

theorem read_write {x : Json} (hplain : x.Plain stack.jsonLimits) (hdepth : x.depth ≤ stack.json) (indent : Option Nat) :
    read stack (x.write indent) = ofJson stack x := by
  have hread := Json.read_write (Json.Limits.takes_of_places rfl 17) hplain.readable hdepth indent
  rw [read, hread]

theorem canDisplay_eq_false {opened : Nat} {x : Json} (hx : x ≠ .null)
    (h : isBeyond (stack.display opened) x.displayLevels = true) : stack.canDisplay opened x = false := by
  cases x with
  | null => exact absurd rfl hx
  | bool | int | float | text | array | object => simp only [Stack.canDisplay, h, Bool.not_true]

/-- A list of one part gives no declaration and no error about it, if that part is no item and cannot be displayed. -/
theorem ofJson_undisplayed {document x : Json} (hdocument : document.merged = .array [x])
    (hx : ∀ key args, x ≠ .object [(key, .array args)]) (hnull : x ≠ .null)
    (hdisplay : isBeyond (stack.display (stack.inList 1)) x.displayLevels = true) :
    ofJson stack document = .error .exhausted := by
  obtain ⟨refused, -, hitem⟩ := itemWithin_refused stack (some Nesting.most) (stack.inList 1) 1 hx
  have hrefusal : refusal stack (stack.inList 1) x refused = .exhausted := by
    rw [refusal, canDisplay_eq_false hnull hdisplay]
    rfl
  rw [enter_bind, hrefusal, if_neg (show ¬ isBeyond (some Nesting.most) 1 = true by decide), ite_self] at hitem
  rw [ofJson, hdocument, ofJsonWithin_array, itemsWithin_cons, hitem]
  rfl

theorem displayLevels_listsWithin (x : Json) (n : Nat) : (listsWithin x n).displayLevels = n + x.displayLevels := by
  induction n with
  | zero => exact (Nat.zero_add _).symm
  | succ n ih =>
    rw [listsWithin, Json.displayLevels, Json.mostDisplayLevels, ih, Json.mostDisplayLevels]
    omega

/-- Lists that JSON is read through, but that cannot all be displayed. -/
theorem read_undisplayed {n : Nat} (hjson : n + 2 ≤ stack.json)
    (hdisplay : isBeyond (stack.display (stack.inList 1)) (n + 2) = true) :
    read stack ((listsWithin (.bool true) (n + 2)).write none) = .error .exhausted := by
  have hplain : (listsWithin (.bool true) (n + 2)).Plain stack.jsonLimits := Call.plain_listsWithin (.bool true) _
  have hdepth : (listsWithin (.bool true) (n + 2)).depth ≤ stack.json := by
    rw [Call.depth_listsWithin]
    exact hjson
  have hlevels : (listsWithin (.bool true) (n + 1)).displayLevels = n + 2 := displayLevels_listsWithin _ _
  rw [read_write hplain hdepth]
  exact ofJson_undisplayed hplain.merged_eq (by intro _ _ h; cases h) (by intro h; cases h) (hlevels ▸ hdisplay)

/-- Blocks, one in another; there is nothing in the last. -/
def blocksWithin : Nat → Json
  | 0 => .object [(blockKey, .array [])]
  | n + 1 => .object [(blockKey, .array [blocksWithin n])]

theorem plain_blocksWithin (limits : Json.Limits) (n : Nat) : (blocksWithin n).Plain limits := by
  induction n with
  | zero => exact .statement (List.forall_mem_nil _)
  | succ n ih => exact .statement (List.forall_mem_singleton.mpr ih)

theorem depth_blocksWithin (n : Nat) : (blocksWithin n).depth = 2 * n + 2 := by
  induction n with
  | zero => rfl
  | succ n ih =>
    rw [blocksWithin, Json.depth_object_array, Json.mostDepth, ih, Json.mostDepth]
    omega

theorem describes_blocksWithin (n : Nat) : ∃ i, DescribesItem 1 (blocksWithin n) i := by
  induction n with
  | zero => exact ⟨_, .block (by decide) .nil⟩
  | succ n ih =>
    obtain ⟨i, hi⟩ := ih
    exact ⟨_, .block (by decide) (.cons hi .nil)⟩

/-- Every block takes a call of its own. -/
theorem itemWithin_blocksWithin {opened n : Nat} (h : isBeyond stack.calls (opened + n) = true) :
    itemWithin stack (some Nesting.most) opened 1 (blocksWithin n) = .error .exhausted := by
  have hbound : ¬ isBeyond (some Nesting.most) 1 = true := by decide
  induction n generalizing opened with
  | zero => exact (itemWithin_block ..).trans ((enter_bind ..).trans (if_pos h))
  | succ n ih =>
    have hlist : opened + (n + 1) ≤ stack.inList opened + n := by
      have := stack.lt_inList opened
      omega
    have hinside : isBeyond stack.calls (stack.inList opened + n) = true := by
      rw [← Bool.not_eq_false] at h ⊢
      exact fun hroom => h (isBeyond_eq_false_of_le hroom hlist)
    rw [blocksWithin, itemWithin_block, enter_bind, itemsWithin_cons, ih hinside, if_neg hbound]
    exact ite_self _

/-- Blocks that JSON is read through, but not the calls: they are a declaration. -/
theorem read_blocksWithin {n : Nat} (hjson : 2 * n + 2 ≤ stack.json) (hcalls : isBeyond stack.calls (n + 2) = true) :
    (∃ d, Describes 1 (blocksWithin n).merged d) ∧
      read stack ((blocksWithin n).write none) = .error .exhausted := by
  have hplain := plain_blocksWithin stack.jsonLimits n
  have hdepth : (blocksWithin n).depth ≤ stack.json := by
    rw [depth_blocksWithin]
    exact hjson
  have hform : ∀ elements, blocksWithin n ≠ .array elements := by
    intro elements h
    cases n <;> cases h
  obtain ⟨i, hi⟩ := describes_blocksWithin n
  rw [Nat.add_comm] at hcalls
  rw [hplain.merged_eq]
  refine ⟨⟨_, .single hi⟩, ?_⟩
  rw [read_write hplain hdepth, ofJson, hplain.merged_eq, ofJsonWithin_single _ _ _ _ hform, itemWithin_blocksWithin hcalls]
  rfl

/-! ## The kinds of errors -/

/-- A text is read, or is malformed, or has a whole number in it that is too long, or is JSON for
    which the stack does not hold. -/
theorem read_cases (stack : Stack) (source : Text) :
    (∃ d, read stack source = .ok d) ∨ (∃ e, read stack source = .error e ∧ e.isMalformed = true) ∨
      (∃ n, read stack source = .error (.tooManyDigits n) ∧ stack.jsonLimits.intDigits < n ∧ Json.HasRun n source) ∨
      (read stack source = .error .exhausted ∧
        ∃ document, Json.read stack.jsonLimits source = .ok document ∧ ¬ stack.Holds document.merged.depth) := by
  unfold read
  cases hread : Json.read stack.jsonLimits source with
  | ok document =>
    cases hresult : ofJson stack document with
    | ok d => exact .inl ⟨d, hresult⟩
    | error e =>
      rcases (exact_ofJson stack document).malformed e hresult with he | rfl
      · exact .inr (.inl ⟨e, hresult, he⟩)
      · exact .inr (.inr (.inr ⟨hresult, document, rfl, fun hholds => lasts_ofJson hholds hresult⟩))
  | error e =>
    cases e with
    | malformed defect rest => exact .inr (.inl ⟨_, rfl, rfl⟩)
    | tooDeep => exact .inr (.inl ⟨_, rfl, rfl⟩)
    | tooManyDigits n => exact .inr (.inr (.inl ⟨n, rfl, Json.long_of_read rfl hread⟩))

/-- What is said of the text of a file is said of the text that its bytes are. -/
theorem ofFile_undeclared {access : Path → Except FileError (List UInt8)} {spelling : Text} {e : ReadError}
    (h : (ofFile stack access spelling).result = .error (.undeclared e)) :
    ∃ bytes source, access (.ofText spelling) = .ok bytes ∧ textOfBytes bytes = .ok source ∧
      read stack source = .error e := by
  rw [result_ofFile] at h
  split at h
  · cases h
  · simp only [bind_eq_error_iff, mapError_eq_error_iff, mapError_eq_ok_iff] at h
    rcases h with ⟨e, -, ⟨⟩⟩ | ⟨bytes, hbytes, ⟨fault, -, ⟨⟩⟩ | ⟨source, hsource, e, hread, ⟨⟩⟩⟩
    exact ⟨bytes, source, hbytes, hsource, hread⟩

end Declaration

namespace Command

/-- A file breaks a run off for a number in its text that is too long, or for the stack. -/
theorem undeclared_of_breakOf {e : FileReadError} {b : Break} (h : breakOf? e = some b) :
    (∃ n, e = .undeclared (.tooManyDigits n) ∧ b = .tooManyDigits) ∨ (e = .undeclared .exhausted ∧ b = .exhausted) := by
  unfold breakOf? at h
  split at h
  · exact .inl ⟨_, rfl, (Option.some.inj h).symm⟩
  · exact .inr ⟨rfl, (Option.some.inj h).symm⟩
  · cases h

/-- A run breaks off over the forest of a file only for the limit it has, or for what breaks off
    reading the text of the file. -/
theorem World.forest_breaks {w : World} {path : Path} {settings : Settings} {b : Break}
    (h : w.forest path settings = .error (.inl b)) :
    (b = .depthOutOfRange ∧ ∃ e, Nesting.Limit.ofInt settings.depth = .error e) ∨
      ∃ bytes source, w.read (.ofText path.toText) = .ok bytes ∧ Declaration.textOfBytes bytes = .ok source ∧
        ((b = .tooManyDigits ∧ ∃ n, Declaration.read w.stack source = .error (.tooManyDigits n)) ∨
          (b = .exhausted ∧ Declaration.read w.stack source = .error .exhausted)) := by
  unfold World.forest at h
  split at h
  · rename_i e hfile
    split at h
    · rename_i hbreak
      cases h
      rcases undeclared_of_breakOf hbreak with ⟨n, rfl, rfl⟩ | ⟨rfl, rfl⟩
      · obtain ⟨bytes, source, hbytes, hsource, hread⟩ := Declaration.ofFile_undeclared hfile
        exact .inr ⟨bytes, source, hbytes, hsource, .inl ⟨rfl, n, hread⟩⟩
      · obtain ⟨bytes, source, hbytes, hsource, hread⟩ := Declaration.ofFile_undeclared hfile
        exact .inr ⟨bytes, source, hbytes, hsource, .inr ⟨rfl, hread⟩⟩
    · cases h
  · split at h
    · rename_i e hlimit
      cases h
      exact .inl ⟨rfl, e, hlimit⟩
    · obtain ⟨e, -, ⟨⟩⟩ := mapError_eq_error_iff.mp h

end Command

namespace Declaration

/-- A text is read, or is malformed, or has a whole number in it that is too long, or is JSON for
    which the stack does not hold; and a run of the command line breaks off over the forest of a file
    with that text only for such a number, for the stack, or for the limit that it has. -/
theorem reads_or_malformed_or_stops (stack : Stack) (source : Text) :
    ((∃ d, read stack source = .ok d) ∨ (∃ e, read stack source = .error e ∧ e.isMalformed = true) ∨
      (∃ n, read stack source = .error (.tooManyDigits n) ∧ 4300 < n ∧ Json.HasRun n source) ∨
      (read stack source = .error .exhausted ∧
        ∃ document, Json.read stack.jsonLimits source = .ok document ∧ ¬ stack.Holds document.merged.depth)) ∧
    ∀ (w : Command.World) (path : Path) (settings : Settings) (bytes : List UInt8) (b : Command.Break),
      w.stack = stack → w.read (.ofText path.toText) = .ok bytes → textOfBytes bytes = .ok source →
        w.forest path settings = .error (.inl b) →
          (b = .depthOutOfRange ∧ ∃ e, Nesting.Limit.ofInt settings.depth = .error e) ∨
            (b = .tooManyDigits ∧ ∃ n, read stack source = .error (.tooManyDigits n)) ∨
            (b = .exhausted ∧ read stack source = .error .exhausted) := by
  refine ⟨read_cases stack source, ?_⟩
  rintro w path settings bytes b rfl hbytes hsource h
  rcases w.forest_breaks h with hlimit | ⟨bytes', source', hbytes', hsource', hread⟩
  · exact .inl hlimit
  · obtain rfl : bytes = bytes' := Except.ok.inj (hbytes.symm.trans hbytes')
    obtain rfl : source = source' := Except.ok.inj (hsource.symm.trans hsource')
    exact .inr hread

theorem isNumeral_ones (n : Nat) : IsNumeral (List.replicate (n + 1) '1') where
  ne_nil := List.cons_ne_nil _ _
  digits c hc := by
    rw [List.eq_of_mem_replicate hc]
    rfl
  leading h := by
    rw [List.replicate_succ, List.head?_cons] at h
    cases h

theorem read_ones (stack : Stack) {n : Nat} (hn : stack.jsonLimits.intDigits ≤ n) :
    read stack (Text.ofChars (List.replicate (n + 1) '1')) = .error (.tooManyDigits (n + 1)) := by
  have hlong : stack.jsonLimits.intDigits < (List.replicate (n + 1) '1').length := by
    rw [List.length_replicate]
    omega
  have hread := Json.read_numeral_too_long rfl false (isNumeral_ones n) hlong
  rw [List.length_replicate] at hread
  rw [read]
  change Json.read stack.jsonLimits (Text.ofChars _) = _ at hread
  rw [hread]

/-- A text of 4301 ones is neither read nor malformed, whatever room there is; with the usual room,
    neither are lists that nest as deep as JSON is read. -/
theorem ones_too_long :
    (∀ stack, read stack (Text.ofChars (List.replicate 4301 '1')) = .error (.tooManyDigits 4301)) ∧
      read .usual ((Call.listsWithin (.bool true) Stack.usual.json).write none) = .error .exhausted ∧
      ∀ stack, ¬ ∀ source, (∃ d, read stack source = .ok d) ∨ ∃ e, read stack source = .error e ∧ e.isMalformed = true := by
  have hread (stack : Stack) := read_ones stack (Nat.le_refl stack.jsonLimits.intDigits)
  refine ⟨hread, @read_undisplayed .usual 944 (by decide) (by decide), fun stack hall => ?_⟩
  rcases hall _ with ⟨d, hd⟩ | ⟨e, he, hmalformed⟩
  · cases (hread stack).symm.trans hd
  · cases (hread stack).symm.trans he
    cases hmalformed

end Declaration

end FieldForest
