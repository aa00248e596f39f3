/-
  FieldForest.Proofs.Declaration.Grammar — the documents that describe declarations.

  The grammar is a relation between documents and what they describe. It has the depth of its
  items as an index, since only a body is one level further down, and it looks at the third of
  three arguments only, where an object with a body is nothing else.

  The reader is exact up to its stack: it may give out before anything is found out about the document.
  Each level of a document takes at most one call of the reader, so a stack that holds as many
  levels as the document has does not give out.

  Proved:
  - `itemWithin_block` / `itemWithin_statement` / `itemWithin_refused`: what an item is read as, by its form.
  - `argsWithin_body` / `argsWithin_options` / `argsWithin_plain`: the same for the arguments of a statement.
  - `lasts_ofJsonWithin`: where the stack does not give out.
  - `exact_ofJsonWithin`: what is read is what is described, and nothing else is read.
  - `ofJsonWithin_of_describes`: what is described is read, where there is room for its calls.
  - `reads_exactly_described`: so it is for documents and for the texts that write them.
-/
import FieldForest.Declaration.Reading
import FieldForest.Proofs.Json.Grammar
import FieldForest.Proofs.Value.Saving
import Mathlib.Tactic.SplitIfs

namespace FieldForest

mutual

/-- Displays take one level more than arrays and objects nest. -/
theorem Json.displayLevels_le : ∀ x : Json, x.displayLevels ≤ x.depth + 1
  | .array elements => by
    have hmost := Json.mostDisplayLevels_le elements
    rw [displayLevels, depth]
    omega
  | .object members => by
    have hmost := Json.mostMemberDisplayLevels_le members
    rw [displayLevels, depth]
    omega
  | .null => Nat.le_add_left _ _
  | .bool _ => Nat.le_add_left _ _
  | .int _ => Nat.le_add_left _ _
  | .float _ => Nat.le_add_left _ _
  | .text _ => Nat.le_add_left _ _

theorem Json.mostDisplayLevels_le : ∀ xs : List Json, Json.mostDisplayLevels xs ≤ Json.mostDepth xs + 1
  | [] => Nat.zero_le _
  | x :: xs => by
    have hx := x.displayLevels_le
    have hxs := Json.mostDisplayLevels_le xs
    rw [Json.mostDisplayLevels, Json.mostDepth]
    omega

theorem Json.mostMemberDisplayLevels_le : ∀ members : List (Text × Json),
    Json.mostMemberDisplayLevels members ≤ Json.mostMemberDepth members + 1
  | [] => Nat.zero_le _
  | (_, x) :: rest => by
    have hx := x.displayLevels_le
    have hrest := Json.mostMemberDisplayLevels_le rest
    rw [Json.mostMemberDisplayLevels, Json.mostMemberDepth]
    omega

end

theorem Json.depth_object_array (key : Text) (xs : List Json) :
    (Json.object [(key, .array xs)]).depth = 2 + Json.mostDepth xs := by
  simp only [Json.depth, Json.mostMemberDepth]
  omega

namespace Declaration

/-- Three arguments of which the third is an object that has a body among its members. -/
def HoldsBody (args : List Json) : Prop :=
  ∃ name type members, args = [name, type, .object members] ∧ bodyKey ∈ members.map Prod.fst

mutual

/-- A document is an item at nesting depth `depth`, namely this one. -/
inductive DescribesItem : Nat → Json → Item → Prop
  | block {depth : Nat} {elements : List Json} {items : List Item} :
      depth ≤ Nesting.most → DescribesItems depth elements items →
        DescribesItem depth (.object [(blockKey, .array elements)]) (.block items)
  | statement {depth : Nat} {key : Text} {args : List Json} {values : List Value} :
      depth ≤ Nesting.most → key ≠ blockKey → DescribesArgs depth args values →
        DescribesItem depth (.object [(key, .array args)]) (.statement key values)

inductive DescribesItems : Nat → List Json → List Item → Prop
  | nil {depth : Nat} : DescribesItems depth [] []
  | cons {depth : Nat} {x : Json} {xs : List Json} {i : Item} {is : List Item} :
      DescribesItem depth x i → DescribesItems depth xs is → DescribesItems depth (x :: xs) (i :: is)

/-- The arguments of a statement at depth `depth`: a body is read, all others are kept. -/
inductive DescribesArgs : Nat → List Json → List Value → Prop
  | plain {depth : Nat} {args : List Json} : ¬ HoldsBody args → DescribesArgs depth args (args.map Value.ofJson)
  | body {depth : Nat} {name type body : Json} {d : Declaration} : Describes (depth + 1) body d →
      DescribesArgs depth [name, type, .object [(bodyKey, body)]] [.ofJson name, .ofJson type, .nested d]

/-- A document is a declaration with its items at depth `depth`, namely this one. -/
inductive Describes : Nat → Json → Declaration → Prop
  | sequence {depth : Nat} {elements : List Json} {items : List Item} :
      DescribesItems depth elements items → Describes depth (.array elements) (.sequence items)
  | single {depth : Nat} {x : Json} {i : Item} : DescribesItem depth x i → Describes depth x (.single i)

end

/-! ## What is read, by its form -/

variable {stack : Stack} {bound : Option Nat} {opened depth : Nat} {key : Text}

theorem enter_bind {α : Type} (stack : Stack) (bound : Option Nat) (opened depth : Nat) (result : Except ReadError α) :
    (enter stack bound opened depth >>= fun _ => result) =
      if isBeyond stack.calls opened then .error .exhausted
      else if isBeyond bound depth then .error .tooDeep
      else result := by
  unfold enter
  split_ifs <;> rfl

theorem itemWithin_block (stack : Stack) (bound : Option Nat) (opened depth : Nat) (elements : List Json) :
    itemWithin stack bound opened depth (.object [(blockKey, .array elements)]) =
      (enter stack bound opened depth >>= fun _ =>
        (itemsWithin stack bound (stack.inList opened) depth elements).map .block) := by
  rw [itemWithin]
  refine congrArg (enter stack bound opened depth >>= ·) (funext fun _ => ?_)
  rw [if_pos rfl]
  cases itemsWithin stack bound (stack.inList opened) depth elements with
  | error e => rfl
  | ok items => simp [bind, Except.bind, mapError_ok, Except.map]

theorem itemWithin_statement (stack : Stack) (bound : Option Nat) (opened depth : Nat) (hkey : key ≠ blockKey)
    (args : List Json) :
    itemWithin stack bound opened depth (.object [(key, .array args)]) =
      (enter stack bound opened depth >>= fun _ =>
        (argsWithin stack bound opened depth key args).map (.statement key)) := by
  rw [itemWithin]
  refine congrArg (enter stack bound opened depth >>= ·) (funext fun _ => ?_)
  rw [if_neg hkey]
  cases argsWithin stack bound opened depth key args with
  | error e => rfl
  | ok values => rfl

/-- What is no object with one member, or has no list there, is refused. -/
theorem itemWithin_refused (stack : Stack) (bound : Option Nat) (opened depth : Nat) {x : Json}
    (hx : ∀ key args, x ≠ .object [(key, .array args)]) :
    ∃ refused : Value → ReadError, (∀ v, (refused v).isMalformed = true) ∧
      itemWithin stack bound opened depth x =
        (enter stack bound opened depth >>= fun _ => .error (refusal stack opened x refused)) := by
  fun_cases itemWithin stack bound opened depth x
  case case1 => exact absurd rfl (hx _ _)
  case case2 =>
    refine ⟨_, fun v => ?_, rfl⟩
    split_ifs <;> rfl
  case case3 => exact ⟨_, fun _ => rfl, rfl⟩

theorem itemWithin_ne_ok (stack : Stack) (bound : Option Nat) (opened depth : Nat) {x : Json}
    (hx : ∀ key args, x ≠ .object [(key, .array args)]) (i : Item) : itemWithin stack bound opened depth x ≠ .ok i := by
  obtain ⟨refused, -, hread⟩ := itemWithin_refused stack bound opened depth hx
  rw [hread, enter_bind]
  intro h
  split_ifs at h

theorem argsWithin_body (stack : Stack) (bound : Option Nat) (opened depth : Nat) (key : Text) (name type body : Json) :
    argsWithin stack bound opened depth key [name, type, .object [(bodyKey, body)]] =
      (ofJsonWithin stack bound (opened + 1) (depth + 1) body).map fun d => [.ofJson name, .ofJson type, .nested d] := by
  rw [argsWithin, if_pos rfl]
  cases ofJsonWithin stack bound (opened + 1) (depth + 1) body with
  | error e => rfl
  | ok d => simp [bind, Except.bind, mapError_ok, Except.map]

/-- A body among other members is refused. -/
theorem argsWithin_options (stack : Stack) (bound : Option Nat) (opened depth : Nat) (key : Text) {name type : Json}
    {members : List (Text × Json)} (hbody : bodyKey ∈ members.map Prod.fst)
    (hmore : ∀ body, members ≠ [(bodyKey, body)]) :
    argsWithin stack bound opened depth key [name, type, .object members] =
      .error (refusal stack opened (.object [(key, .array [name, type, .object members])]) .bodyWithOptions) := by
  obtain ⟨m, hm, hkey⟩ := List.mem_map.mp hbody
  have hany : members.any (·.1 == bodyKey) = true := List.any_eq_true.mpr ⟨m, hm, beq_iff_eq.mpr hkey⟩
  have hone : ∀ k body, members = [(k, body)] → False := by
    rintro k body rfl
    obtain rfl := List.mem_singleton.mp hm
    exact hmore body (by rw [← hkey])
  have hread := argsWithin.eq_2 stack bound opened depth key name type members hone
  rwa [if_pos hany] at hread

/-- Without a body the arguments are kept as they are. -/
theorem argsWithin_plain (stack : Stack) (bound : Option Nat) (opened depth : Nat) (key : Text) {args : List Json}
    (h : ¬ HoldsBody args) : argsWithin stack bound opened depth key args = .ok (args.map Value.ofJson) := by
  have hno (name type : Json) (members : List (Text × Json)) (hargs : args = [name, type, .object members]) :
      bodyKey ∉ members.map Prod.fst := fun hbody => h ⟨name, type, members, hargs, hbody⟩
  fun_cases argsWithin stack bound opened depth key args
  case case1 => exact absurd List.mem_cons_self (hno _ _ _ rfl)
  case case3 hany =>
    obtain ⟨m, hm, hkey⟩ := List.any_eq_true.mp hany
    exact absurd (List.mem_map.mpr ⟨m, hm, beq_iff_eq.mp hkey⟩) (hno _ _ _ rfl)
  case case5 => rw [Value.ofElements_eq_map]
  all_goals rfl

theorem itemsWithin_cons (stack : Stack) (bound : Option Nat) (opened depth : Nat) (x : Json) (xs : List Json) :
    itemsWithin stack bound opened depth (x :: xs) =
      itemWithin stack bound opened depth x >>= fun i => (itemsWithin stack bound opened depth xs).map (i :: ·) := by
  rw [itemsWithin]
  refine congrArg (itemWithin stack bound opened depth x >>= ·) (funext fun i => ?_)
  cases itemsWithin stack bound opened depth xs <;> rfl

theorem ofJsonWithin_array (stack : Stack) (bound : Option Nat) (opened depth : Nat) (elements : List Json) :
    ofJsonWithin stack bound opened depth (.array elements) =
      (itemsWithin stack bound (stack.inList opened) depth elements).map .sequence := by
  rw [ofJsonWithin]

theorem ofJsonWithin_single (stack : Stack) (bound : Option Nat) (opened depth : Nat) {x : Json}
    (hx : ∀ elements, x ≠ .array elements) :
    ofJsonWithin stack bound opened depth x = (itemWithin stack bound (opened + 1) depth x).map .single := by
  rw [ofJsonWithin]
  exact hx

/-! ## Where the stack does not give out -/

theorem isBeyond_eq_false_of_le {bound : Option Nat} {m n : Nat} (h : isBeyond bound n = false) (hmn : m ≤ n) :
    isBeyond bound m = false := by
  cases bound with
  | none => rfl
  | some k =>
    simp only [isBeyond, Option.any_some, decide_eq_false_iff_not] at h ⊢
    omega

/-- A result that is not that of a stack that gives out. -/
def Lasts {α : Type} (result : Except ReadError α) : Prop := result ≠ .error .exhausted

namespace Lasts

variable {α β : Type} {result : Except ReadError α}

theorem ok (a : α) : Lasts (.ok a : Except ReadError α) := by
  intro h
  cases h

theorem map {f : α → β} (h : Lasts result) : Lasts (result.map f) := by
  cases result with
  | error e =>
    intro he
    cases he
    exact h rfl
  | ok a => exact .ok _

theorem bind {f : α → Except ReadError β} (h : Lasts result) (hf : ∀ a, Lasts (f a)) : Lasts (result >>= f) := by
  cases result with
  | error e =>
    intro he
    cases he
    exact h rfl
  | ok a => exact hf a

theorem enter (hcalls : isBeyond stack.calls opened = false) (h : Lasts result) :
    Lasts (enter stack bound opened depth >>= fun _ => result) := by
  rw [enter_bind, hcalls, if_neg Bool.false_ne_true]
  split
  · intro he
    cases he
  · exact h

theorem refusal {x : Json} {refused : Value → ReadError} (hx : isBeyond (stack.display opened) x.displayLevels = false)
    (hrefused : ∀ v, (refused v).isMalformed = true) :
    Lasts (.error (refusal stack opened x refused) : Except ReadError α) := by
  have hshown : stack.canDisplay opened x = true := by
    cases x with
    | null => rfl
    | _ => simp only [Stack.canDisplay, hx, Bool.not_false]
  unfold Declaration.refusal
  rw [if_pos hshown]
  intro he
  have hmalformed := hrefused (.ofJson x)
  rw [Except.error.inj he] at hmalformed
  cases hmalformed

end Lasts

section

variable {levels : Nat}

theorem lasts_refusal {α : Type} (h : stack.Holds levels) {x : Json} (hopened : 2 ≤ opened)
    (hx : opened + x.depth ≤ levels + 2) {refused : Value → ReadError} (hrefused : ∀ v, (refused v).isMalformed = true) :
    Lasts (.error (refusal stack opened x refused) : Except ReadError α) := by
  have hlevels := x.displayLevels_le
  have hdisplay := h.display opened (by omega)
  exact .refusal (isBeyond_eq_false_of_le hdisplay (by omega)) hrefused

mutual

theorem lasts_itemWithin (h : stack.Holds levels) {opened : Nat} (hopened : 2 ≤ opened) (depth : Nat) (x : Json)
    (hx : opened + x.depth ≤ levels + 2) : Lasts (itemWithin stack bound opened depth x) := by
  have hcalls : isBeyond stack.calls opened = false := isBeyond_eq_false_of_le h.calls (by omega)
  by_cases hform : ∃ key args, x = .object [(key, .array args)]
  · obtain ⟨key, args, hform⟩ := hform
    have hdepth : x.depth = 2 + Json.mostDepth args := by rw [hform, Json.depth_object_array]
    by_cases hkey : key = blockKey
    · have hlist := stack.inList_le opened
      have hmore := stack.lt_inList opened
      have hitems : Lasts (itemsWithin stack bound (stack.inList opened) depth args) :=
        lasts_itemsWithin h (by omega) depth args (by omega)
      rw [hform, hkey, itemWithin_block]
      exact .enter hcalls hitems.map
    · have hargs : Lasts (argsWithin stack bound opened depth key args) :=
        lasts_argsWithin h hopened depth key args (by omega)
      rw [hform, itemWithin_statement _ _ _ _ hkey]
      exact .enter hcalls hargs.map
  · have hnone : ∀ key args, x ≠ .object [(key, .array args)] := by
      simpa only [not_exists] using hform
    obtain ⟨refused, hrefused, hread⟩ := itemWithin_refused stack bound opened depth hnone
    rw [hread]
    exact .enter hcalls (lasts_refusal h hopened hx hrefused)
termination_by (sizeOf x, 1)

theorem lasts_argsWithin (h : stack.Holds levels) {opened : Nat} (hopened : 2 ≤ opened) (depth : Nat) (key : Text)
    (args : List Json) (hargs : opened + 2 + Json.mostDepth args ≤ levels + 2) :
    Lasts (argsWithin stack bound opened depth key args) := by
  by_cases hholds : HoldsBody args
  · obtain ⟨name, type, members, hform, hmem⟩ := hholds
    by_cases hone : ∃ body, members = [(bodyKey, body)]
    · obtain ⟨body, hbody⟩ := hone
      have hlevels : 1 + body.depth ≤ Json.mostDepth args := by
        rw [hform, hbody]
        simp only [Json.mostDepth, Json.depth, Json.mostMemberDepth]
        omega
      have hdeclaration : Lasts (ofJsonWithin stack bound (opened + 1) (depth + 1) body) :=
        lasts_ofJsonWithin h (by omega) (depth + 1) body (by omega)
      rw [hform, hbody, argsWithin_body]
      exact hdeclaration.map
    · have hdata : opened + (Json.object [(key, .array [name, type, .object members])]).depth ≤ levels + 2 := by
        rw [hform] at hargs
        simp only [Json.depth, Json.mostMemberDepth]
        omega
      rw [hform, argsWithin_options _ _ _ _ _ hmem (not_exists.mp hone)]
      exact lasts_refusal h hopened hdata fun _ => rfl
  · rw [argsWithin_plain _ _ _ _ _ hholds]
    exact .ok _
termination_by (sizeOf args, 0)

theorem lasts_itemsWithin (h : stack.Holds levels) {opened : Nat} (hopened : 2 ≤ opened) (depth : Nat) :
    ∀ xs : List Json, opened + Json.mostDepth xs ≤ levels + 2 → Lasts (itemsWithin stack bound opened depth xs)
  | [], _ => by
    rw [itemsWithin]
    exact .ok _
  | x :: xs, hlevels => by
    rw [Json.mostDepth] at hlevels
    have hx : Lasts (itemWithin stack bound opened depth x) := lasts_itemWithin h hopened depth x (by omega)
    have hxs : Lasts (itemsWithin stack bound opened depth xs) := lasts_itemsWithin h hopened depth xs (by omega)
    rw [itemsWithin_cons]
    exact hx.bind fun _ => hxs.map
termination_by xs => (sizeOf xs, 0)

/-- Where there is room for as many levels as a document has, the stack does not give out. -/
theorem lasts_ofJsonWithin (h : stack.Holds levels) {opened : Nat} (hopened : 1 ≤ opened) (depth : Nat) (x : Json)
    (hx : opened + x.depth ≤ levels + 1) : Lasts (ofJsonWithin stack bound opened depth x) := by
  by_cases hform : ∃ elements, x = .array elements
  · obtain ⟨elements, hform⟩ := hform
    have hdepth : x.depth = 1 + Json.mostDepth elements := by rw [hform, Json.depth]
    have hlist := stack.inList_le opened
    have hmore := stack.lt_inList opened
    have hitems : Lasts (itemsWithin stack bound (stack.inList opened) depth elements) :=
      lasts_itemsWithin h (by omega) depth elements (by omega)
    rw [hform, ofJsonWithin_array]
    exact hitems.map
  · have hitem : Lasts (itemWithin stack bound (opened + 1) depth x) := lasts_itemWithin h (by omega) depth x (by omega)
    rw [ofJsonWithin_single _ _ _ _ (not_exists.mp hform)]
    exact hitem.map
termination_by (sizeOf x, 2)

end

end

/-! ## Reading exactly -/

/-- A result is what the relation describes, and an error that says so if it describes nothing; but
    the stack may give out. -/
structure Exact {α : Type} (result : Except ReadError α) (Described : α → Prop) : Prop where
  sound : ∀ a, result = .ok a → Described a
  complete : ∀ a, Described a → result = .ok a ∨ result = .error .exhausted
  malformed : ∀ e, result = .error e → e.isMalformed = true ∨ e = .exhausted

namespace Exact

variable {α β : Type} {result : Except ReadError α} {Described : α → Prop} {Described' : β → Prop}

theorem of_error {e : ReadError} (he : e.isMalformed = true ∨ e = .exhausted) (hnone : ∀ a, ¬ Described a) :
    Exact (.error e) Described where
  sound a ha := by cases ha
  complete a ha := absurd ha (hnone a)
  malformed e' he' := by
    cases he'
    exact he

theorem exhausted (Described : α → Prop) : Exact (.error .exhausted) Described where
  sound a ha := by cases ha
  complete a _ := .inr rfl
  malformed e he := by
    cases he
    exact .inr rfl

theorem of_refusal {x : Json} {refused : Value → ReadError} (hrefused : ∀ v, (refused v).isMalformed = true)
    (hnone : ∀ a, ¬ Described a) : Exact (.error (refusal stack opened x refused)) Described := by
  refine of_error ?_ hnone
  unfold refusal
  split
  · exact .inl (hrefused _)
  · exact .inr rfl

theorem of_ok {a : α} (h : ∀ b, Described b ↔ a = b) : Exact (.ok a) Described where
  sound b hb := (h b).mpr (Except.ok.inj hb)
  complete b hb := .inl (congrArg _ ((h b).mp hb))
  malformed e he := by cases he

theorem bind {f : α → Except ReadError β} {Described₂ : α → β → Prop} (h : Exact result Described)
    (hf : ∀ a, Exact (f a) (Described₂ a)) (hbind : ∀ b, Described' b ↔ ∃ a, Described a ∧ Described₂ a b) :
    Exact (result >>= f) Described' := by
  cases result with
  | error e =>
    refine ⟨fun b hb => ?_, fun b hb => ?_, fun e' he' => h.malformed e' ?_⟩
    · cases hb
    · obtain ⟨a, ha, -⟩ := (hbind b).mp hb
      rcases h.complete a ha with hok | hexhausted
      · cases hok
      · cases hexhausted
        exact .inr rfl
    · cases he'
      rfl
  | ok a =>
    refine ⟨fun b hb => ?_, fun b hb => ?_, (hf a).malformed⟩
    · exact (hbind b).mpr ⟨a, h.sound a rfl, (hf a).sound b hb⟩
    · obtain ⟨a', ha', hb⟩ := (hbind b).mp hb
      rcases h.complete a' ha' with hok | hexhausted
      · cases hok
        exact (hf a).complete b hb
      · cases hexhausted

theorem map {f : α → β} (h : Exact result Described) (hmap : ∀ b, Described' b ↔ ∃ a, Described a ∧ f a = b) :
    Exact (result.map f) Described' := by
  have hbind : result.map f = result >>= fun a => .ok (f a) := by cases result <;> rfl
  rw [hbind]
  exact h.bind (fun a => of_ok fun _ => Iff.rfl) hmap

/-- At the deepest level and above it a result stands, and beyond it there is none. -/
theorem guard {n : Nat} (h : depth ≤ n → Exact result Described) (hdepth : ∀ a, Described a → depth ≤ n) :
    Exact (enter stack (some n) opened depth >>= fun _ => result) Described := by
  rw [enter_bind]
  split
  · exact exhausted _
  · simp only [isBeyond, Option.any_some, decide_eq_true_eq]
    split
    · exact of_error (.inl rfl) fun a ha => absurd (hdepth a ha) (by omega)
    · exact h (by omega)

/-- What does not give out is exactly what is described. -/
theorem eq_ok_iff (h : Exact result Described) (hlasts : Lasts result) (a : α) : result = .ok a ↔ Described a :=
  ⟨h.sound a, fun ha => (h.complete a ha).resolve_right hlasts⟩

end Exact

theorem exact_argsWithin (opened depth : Nat) (key : Text) {args : List Json}
    (hbody : ∀ name type body, args = [name, type, .object [(bodyKey, body)]] →
      Exact (ofJsonWithin stack (some Nesting.most) (opened + 1) (depth + 1) body) (Describes (depth + 1) body)) :
    Exact (argsWithin stack (some Nesting.most) opened depth key args) (DescribesArgs depth args) := by
  by_cases hholds : HoldsBody args
  · obtain ⟨name, type, members, rfl, hmem⟩ := hholds
    by_cases hone : ∃ body, members = [(bodyKey, body)]
    · obtain ⟨body, rfl⟩ := hone
      rw [argsWithin_body]
      refine (hbody name type body rfl).map fun values => ⟨?_, ?_⟩
      · rintro (⟨hplain⟩ | ⟨hd⟩)
        · exact absurd ⟨name, type, _, rfl, hmem⟩ hplain
        · exact ⟨_, hd, rfl⟩
      · rintro ⟨d, hd, rfl⟩
        exact .body hd
    · have hmore : ∀ body, members ≠ [(bodyKey, body)] := not_exists.mp hone
      rw [argsWithin_options _ _ _ _ key hmem hmore]
      refine .of_refusal (fun _ => rfl) fun values hvalues => ?_
      cases hvalues with
      | plain hplain => exact hplain ⟨name, type, members, rfl, hmem⟩
      | body hd => exact hmore _ rfl
  · rw [argsWithin_plain _ _ _ _ key hholds]
    refine .of_ok fun values => ⟨?_, ?_⟩
    · rintro (_ | hd)
      · rfl
      · exact absurd ⟨_, _, _, rfl, List.mem_cons_self⟩ hholds
    · rintro rfl
      exact .plain hholds

theorem exact_itemWithin_block {elements : List Json}
    (h : Exact (itemsWithin stack (some Nesting.most) (stack.inList opened) depth elements)
      (DescribesItems depth elements)) :
    Exact (itemWithin stack (some Nesting.most) opened depth (.object [(blockKey, .array elements)]))
      (DescribesItem depth (.object [(blockKey, .array elements)])) := by
  rw [itemWithin_block]
  refine .guard (fun hdepth => h.map fun i => ⟨?_, ?_⟩) fun i hi => ?_
  · rintro (⟨-, hitems⟩ | ⟨-, hkey, -⟩)
    · exact ⟨_, hitems, rfl⟩
    · exact absurd rfl hkey
  · rintro ⟨items, hitems, rfl⟩
    exact .block hdepth hitems
  · cases hi <;> assumption

theorem exact_itemWithin_statement (hkey : key ≠ blockKey) {args : List Json}
    (h : Exact (argsWithin stack (some Nesting.most) opened depth key args) (DescribesArgs depth args)) :
    Exact (itemWithin stack (some Nesting.most) opened depth (.object [(key, .array args)]))
      (DescribesItem depth (.object [(key, .array args)])) := by
  rw [itemWithin_statement _ _ _ depth hkey]
  refine .guard (fun hdepth => h.map fun i => ⟨?_, ?_⟩) fun i hi => ?_
  · rintro (- | ⟨-, -, hvalues⟩)
    · exact absurd rfl hkey
    · exact ⟨_, hvalues, rfl⟩
  · rintro ⟨values, hvalues, rfl⟩
    exact .statement hdepth hkey hvalues
  · cases hi <;> assumption

mutual

theorem exact_itemWithin (stack : Stack) (opened depth : Nat) (x : Json) :
    Exact (itemWithin stack (some Nesting.most) opened depth x) (DescribesItem depth x) := by
  by_cases hx : ∃ key args, x = .object [(key, .array args)]
  · obtain ⟨key, args, hx⟩ := hx
    by_cases hkey : key = blockKey
    · have hitems := exact_itemsWithin stack (stack.inList opened) depth args
      rw [hx, hkey]
      exact exact_itemWithin_block hitems
    · have hargs : Exact (argsWithin stack (some Nesting.most) opened depth key args) (DescribesArgs depth args) :=
        exact_argsWithin opened depth key fun name type body hargs =>
          exact_ofJsonWithin stack (opened + 1) (depth + 1) body
      rw [hx]
      exact exact_itemWithin_statement hkey hargs
  · have hnone : ∀ key args, x ≠ .object [(key, .array args)] := by
      simpa only [not_exists] using hx
    obtain ⟨refused, hrefused, hread⟩ := itemWithin_refused stack (some Nesting.most) opened depth hnone
    have hdescribes (i : Item) : ¬ DescribesItem depth x i := by
      intro hi
      cases hi <;> exact hnone _ _ rfl
    rw [hread]
    exact .guard (fun _ => .of_refusal hrefused hdescribes) fun i hi => absurd hi (hdescribes i)
termination_by (sizeOf x, 0)

theorem exact_itemsWithin (stack : Stack) (opened depth : Nat) : ∀ xs,
    Exact (itemsWithin stack (some Nesting.most) opened depth xs) (DescribesItems depth xs)
  | [] => by
    rw [itemsWithin]
    refine .of_ok fun items => ⟨?_, ?_⟩
    · rintro ⟨⟩
      rfl
    · rintro rfl
      exact .nil
  | x :: xs => by
    have hx := exact_itemWithin stack opened depth x
    have hxs := exact_itemsWithin stack opened depth xs
    rw [itemsWithin_cons]
    refine hx.bind (fun i => hxs.map fun items => Iff.rfl) fun items => ⟨?_, ?_⟩
    · rintro (_ | ⟨hi, his⟩)
      exact ⟨_, hi, _, his, rfl⟩
    · rintro ⟨i, hi, is, his, rfl⟩
      exact .cons hi his
termination_by xs => (sizeOf xs, 0)

theorem exact_ofJsonWithin (stack : Stack) (opened depth : Nat) (x : Json) :
    Exact (ofJsonWithin stack (some Nesting.most) opened depth x) (Describes depth x) := by
  by_cases hx : ∃ elements, x = .array elements
  · obtain ⟨elements, hx⟩ := hx
    have hitems := exact_itemsWithin stack (stack.inList opened) depth elements
    rw [hx, ofJsonWithin_array]
    refine hitems.map fun d => ⟨?_, ?_⟩
    · rintro (⟨h⟩ | ⟨⟨⟩⟩)
      exact ⟨_, h, rfl⟩
    · rintro ⟨items, h, rfl⟩
      exact .sequence h
  · have hitem := exact_itemWithin stack (opened + 1) depth x
    rw [ofJsonWithin_single _ _ _ _ (not_exists.mp hx)]
    refine hitem.map fun d => ⟨?_, ?_⟩
    · rintro (_ | hi)
      · exact absurd ⟨_, rfl⟩ hx
      · exact ⟨_, hi, rfl⟩
    · rintro ⟨i, hi, rfl⟩
      exact .single hi
termination_by (sizeOf x, 1)

end

theorem exact_ofJson (stack : Stack) (document : Json) :
    Exact (ofJson stack document) (Describes 1 document.merged) :=
  exact_ofJsonWithin stack 1 1 document.merged

theorem lasts_ofJson {document : Json} (h : stack.Holds document.merged.depth) : Lasts (ofJson stack document) :=
  lasts_ofJsonWithin h (Nat.le_refl 1) 1 document.merged (by omega)

/-! ## What is described is read -/

theorem enter_eq_ok {n : Nat} (hcalls : isBeyond stack.calls opened = false) (hdepth : depth ≤ n) :
    enter stack (some n) opened depth = .ok () := by
  have hbound : isBeyond (some n) depth = false := by
    simpa only [isBeyond, Option.any_some, decide_eq_false_iff_not, Nat.not_lt] using hdepth
  rw [enter, hcalls, hbound]
  rfl

mutual

/-- An item takes no more calls than its document has levels, and nothing of it is displayed. -/
theorem itemWithin_of_describes {levels : Nat} (h : isBeyond stack.calls levels = false) {opened depth : Nat} :
    ∀ {x : Json} {i : Item}, DescribesItem depth x i → opened + x.depth ≤ levels + 2 →
      itemWithin stack (some Nesting.most) opened depth x = .ok i
  | _, _, @DescribesItem.block _ xs _ hdepth hitems, hx => by
    rw [Json.depth_object_array] at hx
    have hlist := stack.inList_le opened
    have hread := itemsWithin_of_describes h hitems (show stack.inList opened + Json.mostDepth xs ≤ levels + 2 by omega)
    rw [itemWithin_block, enter_eq_ok (isBeyond_eq_false_of_le h (by omega)) hdepth, hread]
    rfl
  | _, _, @DescribesItem.statement _ key args _ hdepth hkey hvalues, hx => by
    rw [Json.depth_object_array] at hx
    have hread := argsWithin_of_describes h key hvalues (show opened + 2 + Json.mostDepth args ≤ levels + 2 by omega)
    rw [itemWithin_statement _ _ _ _ hkey, enter_eq_ok (isBeyond_eq_false_of_le h (by omega)) hdepth, hread]
    rfl

theorem itemsWithin_of_describes {levels : Nat} (h : isBeyond stack.calls levels = false) {opened depth : Nat} :
    ∀ {xs : List Json} {is : List Item}, DescribesItems depth xs is → opened + Json.mostDepth xs ≤ levels + 2 →
      itemsWithin stack (some Nesting.most) opened depth xs = .ok is
  | _, _, .nil, _ => by rw [itemsWithin]
  | _, _, .cons hi his, hlevels => by
    rw [Json.mostDepth] at hlevels
    rw [itemsWithin_cons, itemWithin_of_describes h hi (by omega), itemsWithin_of_describes h his (by omega)]
    rfl

theorem argsWithin_of_describes {levels : Nat} (h : isBeyond stack.calls levels = false) {opened depth : Nat}
    (key : Text) : ∀ {args : List Json} {values : List Value}, DescribesArgs depth args values →
      opened + 2 + Json.mostDepth args ≤ levels + 2 →
        argsWithin stack (some Nesting.most) opened depth key args = .ok values
  | _, _, .plain hplain, _ => argsWithin_plain _ _ _ _ key hplain
  | _, _, @DescribesArgs.body _ name type body _ hd, hlevels => by
    have hbody : 1 + body.depth ≤ Json.mostDepth [name, type, .object [(bodyKey, body)]] := by
      simp only [Json.mostDepth, Json.depth, Json.mostMemberDepth]
      omega
    have hread := ofJsonWithin_of_describes h hd (show opened + 1 + body.depth ≤ levels + 1 by omega)
    rw [argsWithin_body, hread]
    rfl

/-- What a document describes is read, if there is room for as many calls as the document has levels. -/
theorem ofJsonWithin_of_describes {levels : Nat} (h : isBeyond stack.calls levels = false) {opened depth : Nat} :
    ∀ {x : Json} {d : Declaration}, Describes depth x d → opened + x.depth ≤ levels + 1 →
      ofJsonWithin stack (some Nesting.most) opened depth x = .ok d
  | _, _, @Describes.sequence _ xs _ hitems, hx => by
    rw [Json.depth] at hx
    have hlist := stack.inList_le opened
    have hread := itemsWithin_of_describes h hitems (show stack.inList opened + Json.mostDepth xs ≤ levels + 2 by omega)
    rw [ofJsonWithin_array, hread]
    rfl
  | x, _, .single hitem, hx => by
    have hform : ∀ elements, x ≠ .array elements := by
      rintro elements rfl
      cases hitem
    rw [ofJsonWithin_single _ _ _ _ hform, itemWithin_of_describes h hitem (by omega)]
    rfl

end

theorem ofJson_of_describes {document : Json} {d : Declaration}
    (h : isBeyond stack.calls document.merged.depth = false) (hd : Describes 1 document.merged d) :
    ofJson stack document = .ok d :=
  ofJsonWithin_of_describes h hd (by omega)

/-! ## Documents and their texts -/

/-- The declaration of a text is that of its document. -/
theorem read_eq_ok_iff_document {source : Text} {d : Declaration} :
    read stack source = .ok d ↔
      ∃ document, Json.read stack.jsonLimits source = .ok document ∧ ofJson stack document = .ok d := by
  unfold read
  cases Json.read stack.jsonLimits source with
  | ok document => simp
  | error e => cases e <;> simp

/-- Unless the stack gives out, a document is read as what it describes, once its repeated keys are
    merged; if it describes nothing it is malformed. The stack does not give out if it holds as many
    levels as the document has, and what a document describes is read if there is room for that many
    calls. A text that writes the document is read as the document is. -/
theorem reads_exactly_described (stack : Stack) (document : Json) :
    (ofJson stack document ≠ .error .exhausted →
      (∀ d, ofJson stack document = .ok d ↔ Describes 1 document.merged d) ∧
      ((∀ d, ¬ Describes 1 document.merged d) → ∃ e, ofJson stack document = .error e ∧ e.isMalformed = true)) ∧
    (stack.Holds document.merged.depth → ofJson stack document ≠ .error .exhausted) ∧
    (isBeyond stack.calls document.merged.depth = false →
      ∀ d, Describes 1 document.merged d → ofJson stack document = .ok d) ∧
    ∀ source, Json.read stack.jsonLimits source = .ok document → read stack source = ofJson stack document := by
  have hexact := exact_ofJson stack document
  refine ⟨fun hlasts => ⟨hexact.eq_ok_iff hlasts, fun hnone => ?_⟩, lasts_ofJson,
    fun hcalls d => ofJson_of_describes hcalls, fun source hread => ?_⟩
  · cases hresult : ofJson stack document with
    | error e =>
      rcases hexact.malformed e hresult with he | rfl
      · exact ⟨e, rfl, he⟩
      · exact absurd hresult hlasts
    | ok d => exact absurd (hexact.sound d hresult) (hnone d)
  · rw [read, hread]

/-- Without an end of calls, exactly what is described is read. -/
theorem ofJson_endless_eq_ok_iff (json : Nat) (document : Json) (d : Declaration) :
    ofJson (.endless json) document = .ok d ↔ Describes 1 document.merged d :=
  (exact_ofJson (.endless json) document).eq_ok_iff (lasts_ofJson (Stack.holds_endless json _)) d

/-- A block with an empty body in it is read; beside an option the same body is malformed. -/
theorem reads_body_in_block :
    ofJson .usual (.object [(blockKey, .array [.object [("requires", .array [.text "a", .text "map",
        .object [(bodyKey, .array [])]])]])]) =
      .ok (.single (.block [.statement "requires" [.text "a", .text "map", .nested (.sequence [])]])) ∧
    ∃ e, ofJson .usual (.object [("requires", .array [.text "a", .text "map",
        .object [(bodyKey, .array []), ("default", .null)]])]) = .error e ∧ e.isMalformed = true := by
  constructor
  · obtain ⟨hexact, hlasts, -, -⟩ := reads_exactly_described .usual
      (.object [(blockKey, .array [.object [("requires", .array [.text "a", .text "map",
        .object [(bodyKey, .array [])]])]])])
    refine ((hexact (hlasts ⟨by decide, by decide⟩)).1 _).mpr (.single (.block (by decide) (.cons ?_ .nil)))
    exact .statement (by decide) (by decide) (.body (.sequence .nil))
  · obtain ⟨hexact, hlasts, -, -⟩ := reads_exactly_described .usual
      (.object [("requires", .array [.text "a", .text "map", .object [(bodyKey, .array []), ("default", .null)]])])
    refine (hexact (hlasts ⟨by decide, by decide⟩)).2 fun d hd => ?_
    rcases hd with _ | ⟨_ | ⟨-, -, hargs⟩⟩
    cases hargs with
    | plain hplain => exact hplain ⟨_, _, _, rfl, List.mem_cons_self⟩

end Declaration

end FieldForest
