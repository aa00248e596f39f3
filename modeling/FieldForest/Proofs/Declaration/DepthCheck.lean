/-
  FieldForest.Proofs.Declaration.DepthCheck — what the reader's own check on depth decides.

  The reader asks for the depth of every item, the builder for that of statements only: a block
  without statements counts for the one and not for the other. The bound is a parameter of the
  reader, so it can be left out. What the check keeps out is then a matter of the declaration
  that is read, and a declaration with an item below the deepest level never builds: either a
  statement stands there, or a body without one.

  Proved:
  - `itemWithin_eq_ok_iff` / `ofJsonWithin_eq_ok_iff`: a bound keeps out the declarations that
    reach below it, and changes no other.
  - `Statement.Sound.reach_le` / `reach_le_of_builds`: what builds under a limit has no item
    below it.
  - `builds_with_check_iff_without`: so the same forests are read with the check and without it.
-/
import FieldForest.Proofs.Build.Acceptance
import FieldForest.Proofs.Declaration.Grammar

namespace FieldForest

namespace Declaration

/-- The declaration that a document describes, items standing as deep as they may. -/
def ofJsonUnchecked (stack : Stack) (document : Json) : Except ReadError Declaration :=
  ofJsonWithin stack none 1 1 document.merged

/-- Arguments without a body do not depend on the bound. -/
theorem argsWithin_of_no_body (stack : Stack) (bound bound' : Option Nat) (opened depth : Nat) (key : Text)
    {args : List Json} (hbody : ∀ name type body, args ≠ [name, type, .object [(bodyKey, body)]]) :
    argsWithin stack bound opened depth key args = argsWithin stack bound' opened depth key args := by
  by_cases hholds : HoldsBody args
  · obtain ⟨name, type, members, rfl, hmem⟩ := hholds
    have hmore (body : Json) : members ≠ [(bodyKey, body)] := by
      rintro rfl
      exact hbody _ _ _ rfl
    rw [argsWithin_options _ _ _ _ key hmem hmore, argsWithin_options _ _ _ _ key hmem hmore]
  · rw [argsWithin_plain _ _ _ _ key hholds, argsWithin_plain _ _ _ _ key hholds]

/-! ## What the check keeps out -/

mutual

/-- How many levels the items of a declaration take, blocks without statements among them. -/
def reach : Declaration → Nat
  | .single i => itemReach i
  | .sequence is => mostReach is

def itemReach : Item → Nat
  | .statement _ args => argsReach args
  | .block items => max 1 (mostReach items)

def argsReach : List Value → Nat
  | [_, _, .nested body] => 1 + reach body
  | _ => 1

def mostReach : List Item → Nat
  | [] => 0
  | i :: is => max (itemReach i) (mostReach is)

end

/-- A result is another one, kept where it fits. -/
def Kept {α : Type} (Fits : α → Prop) (kept result : Except ReadError α) : Prop :=
  ∀ a, kept = .ok a ↔ result = .ok a ∧ Fits a

namespace Kept

variable {α β : Type} {Fits : α → Prop} {Fits' : β → Prop} {kept result : Except ReadError α}

theorem map {f : α → β} (h : Kept Fits kept result) (hfits : ∀ a, Fits' (f a) ↔ Fits a) :
    Kept Fits' (kept.map f) (result.map f) := by
  intro b
  have hmap (r : Except ReadError α) : r.map f = .ok b ↔ ∃ a, r = .ok a ∧ f a = b := by
    cases r <;> simp [Except.map]
  rw [hmap, hmap]
  constructor
  · rintro ⟨a, ha, rfl⟩
    obtain ⟨hresult, ha⟩ := (h a).mp ha
    exact ⟨⟨a, hresult, rfl⟩, (hfits a).mpr ha⟩
  · rintro ⟨⟨a, hresult, rfl⟩, hb⟩
    exact ⟨a, (h a).mpr ⟨hresult, (hfits a).mp hb⟩, rfl⟩

/-- Beyond the bound nothing is kept, and within it what the inner result keeps. -/
theorem enter {stack : Stack} {n opened depth : Nat} (h : depth ≤ n → Kept Fits kept result)
    (hdepth : ∀ a, Fits a → depth ≤ n) :
    Kept Fits (enter stack (some n) opened depth >>= fun _ => kept)
      (enter stack none opened depth >>= fun _ => result) := by
  intro a
  rw [enter_bind, enter_bind]
  cases isBeyond stack.calls opened with
  | true => simp only [if_true, reduceCtorEq, false_and]
  | false =>
    simp only [isBeyond, Option.any_some, Option.any_none, decide_eq_true_eq, Bool.false_eq_true, if_false]
    by_cases hlt : n < depth
    · rw [if_pos hlt]
      refine iff_of_false (by simp only [reduceCtorEq, not_false_eq_true]) fun ha => ?_
      have := hdepth a ha.2
      omega
    · rw [if_neg hlt]
      exact h (by omega) a

end Kept

theorem one_le_itemReach (i : Item) : 1 ≤ itemReach i := by
  cases i with
  | statement key args =>
    unfold itemReach argsReach
    split <;> omega
  | block items =>
    rw [itemReach]
    omega

/-- Arguments without a body take one level. -/
theorem argsReach_of_no_body {stack : Stack} {bound : Option Nat} {opened depth : Nat} {key : Text} {args : List Json}
    (hbody : ∀ name type body, args ≠ [name, type, .object [(bodyKey, body)]]) {values : List Value}
    (h : argsWithin stack bound opened depth key args = .ok values) : argsReach values = 1 := by
  have hplain : values = args.map Value.ofJson := by
    by_cases hholds : HoldsBody args
    · obtain ⟨name, type, members, rfl, hmem⟩ := hholds
      have hmore (body : Json) : members ≠ [(bodyKey, body)] := by
        rintro rfl
        exact hbody _ _ _ rfl
      rw [argsWithin_options _ _ _ _ key hmem hmore] at h
      cases h
    · rw [argsWithin_plain _ _ _ _ key hholds] at h
      exact (Except.ok.inj h).symm
  rw [hplain]
  match args with
  | [_, _, x] => cases x <;> simp [Value.ofJson, argsReach]
  | [] | [_] | [_, _] | _ :: _ :: _ :: _ :: _ => simp [argsReach]

mutual

theorem itemWithin_eq_ok_iff (stack : Stack) (opened n depth : Nat) (x : Json) :
    Kept (fun i => depth + itemReach i ≤ n + 1) (itemWithin stack (some n) opened depth x)
      (itemWithin stack none opened depth x) := by
  have hdepth (i : Item) (hi : depth + itemReach i ≤ n + 1) : depth ≤ n := by
    have := one_le_itemReach i
    omega
  by_cases hx : ∃ key args, x = .object [(key, .array args)]
  · obtain ⟨key, args, hx⟩ := hx
    by_cases hkey : key = blockKey
    · have hitems (hle : depth ≤ n) := itemsWithin_eq_ok_iff stack (stack.inList opened) n depth (by omega) args
      rw [hx, hkey, itemWithin_block, itemWithin_block]
      refine .enter (fun hle => (hitems hle).map fun is => ?_) hdepth
      show depth + max 1 (mostReach is) ≤ n + 1 ↔ depth + mostReach is ≤ n + 1
      omega
    · have hargs (hle : depth ≤ n) : Kept (fun values => depth + argsReach values ≤ n + 1)
          (argsWithin stack (some n) opened depth key args) (argsWithin stack none opened depth key args) := by
        by_cases hbody : ∃ name type body, args = [name, type, .object [(bodyKey, body)]]
        · obtain ⟨name, type, body, hbody⟩ := hbody
          have hdeclaration := ofJsonWithin_eq_ok_iff stack (opened + 1) n (depth + 1) (by omega) body
          rw [hbody, argsWithin_body, argsWithin_body]
          refine hdeclaration.map fun d => ?_
          show depth + (1 + reach d) ≤ n + 1 ↔ depth + 1 + reach d ≤ n + 1
          omega
        · have hbody : ∀ name type body, args ≠ [name, type, .object [(bodyKey, body)]] := by
            simpa only [not_exists] using hbody
          rw [argsWithin_of_no_body stack (some n) none opened depth key hbody]
          intro values
          refine (and_iff_left_of_imp fun hvalues => ?_).symm
          have hone := argsReach_of_no_body hbody hvalues
          show depth + argsReach values ≤ n + 1
          omega
      rw [hx, itemWithin_statement _ _ _ depth hkey, itemWithin_statement _ _ _ depth hkey]
      exact .enter (fun hle => (hargs hle).map fun values => Iff.rfl) hdepth
  · have hnone : ∀ key args, x ≠ .object [(key, .array args)] := by
      simpa only [not_exists] using hx
    intro i
    exact iff_of_false (itemWithin_ne_ok stack _ opened depth hnone i) fun h =>
      itemWithin_ne_ok stack _ opened depth hnone i h.1
termination_by (sizeOf x, 0)

theorem itemsWithin_eq_ok_iff (stack : Stack) (opened n depth : Nat) (h : depth ≤ n + 1) : ∀ xs : List Json,
    Kept (fun is => depth + mostReach is ≤ n + 1) (itemsWithin stack (some n) opened depth xs)
      (itemsWithin stack none opened depth xs)
  | [] => by
    intro is
    rw [itemsWithin, itemsWithin]
    refine (and_iff_left_of_imp ?_).symm
    rintro ⟨⟩
    simpa [mostReach] using h
  | x :: xs => by
    have hx := itemWithin_eq_ok_iff stack opened n depth x
    have hxs := itemsWithin_eq_ok_iff stack opened n depth h xs
    have hcons (bound : Option Nat) (is : List Item) : itemsWithin stack bound opened depth (x :: xs) = .ok is ↔
        ∃ i rest, itemWithin stack bound opened depth x = .ok i ∧
          itemsWithin stack bound opened depth xs = .ok rest ∧ i :: rest = is := by
      rw [itemsWithin_cons]
      cases itemWithin stack bound opened depth x <;> cases itemsWithin stack bound opened depth xs <;>
        simp [bind, Except.bind, Except.map]
    intro is
    rw [hcons, hcons]
    constructor
    · rintro ⟨i, rest, hi, hrest, rfl⟩
      obtain ⟨hi, hifits⟩ := (hx i).mp hi
      obtain ⟨hrest, hrestfits⟩ := (hxs rest).mp hrest
      refine ⟨⟨i, rest, hi, hrest, rfl⟩, ?_⟩
      show depth + max (itemReach i) (mostReach rest) ≤ n + 1
      omega
    · rintro ⟨⟨i, rest, hi, hrest, rfl⟩, hfits⟩
      change depth + max (itemReach i) (mostReach rest) ≤ n + 1 at hfits
      exact ⟨i, rest, (hx i).mpr ⟨hi, by omega⟩, (hxs rest).mpr ⟨hrest, by omega⟩, rfl⟩
termination_by xs => (sizeOf xs, 0)

/-- A bound keeps out the declarations that reach below it, and it changes no other. -/
theorem ofJsonWithin_eq_ok_iff (stack : Stack) (opened n depth : Nat) (h : depth ≤ n + 1) (x : Json) :
    Kept (fun d => depth + reach d ≤ n + 1) (ofJsonWithin stack (some n) opened depth x)
      (ofJsonWithin stack none opened depth x) := by
  by_cases hx : ∃ elements, x = .array elements
  · obtain ⟨elements, hx⟩ := hx
    have hitems := itemsWithin_eq_ok_iff stack (stack.inList opened) n depth h elements
    rw [hx, ofJsonWithin_array, ofJsonWithin_array]
    refine hitems.map fun is => ?_
    rw [reach]
  · have hitem := itemWithin_eq_ok_iff stack (opened + 1) n depth x
    rw [ofJsonWithin_single _ _ _ _ (not_exists.mp hx), ofJsonWithin_single _ _ _ _ (not_exists.mp hx)]
    refine hitem.map fun i => ?_
    rw [reach]
termination_by (sizeOf x, 1)

end

end Declaration

/-! ## What builds -/

namespace Item

mutual

/-- Items reach as deep as the statements in them, but for blocks that hold none. -/
theorem depth_add_itemReach_le {depth most : Nat} (hdepth : depth ≤ most) : ∀ i : Item,
    (∀ s ∈ i.statements, depth + Declaration.argsReach s.args ≤ most + 1) →
      depth + Declaration.itemReach i ≤ most + 1
  | .statement keyword args, h => by
    rw [Declaration.itemReach]
    exact h ⟨keyword, args⟩ (by rw [statements]; exact List.mem_singleton_self _)
  | .block items, h => by
    have hitems := depth_add_mostReach_le hdepth items (by simpa only [statements] using h)
    rw [Declaration.itemReach]
    omega

theorem depth_add_mostReach_le {depth most : Nat} (hdepth : depth ≤ most) : ∀ items : List Item,
    (∀ s ∈ allStatements items, depth + Declaration.argsReach s.args ≤ most + 1) →
      depth + Declaration.mostReach items ≤ most + 1
  | [], _ => by
    rw [Declaration.mostReach]
    omega
  | i :: is, h => by
    simp only [allStatements, List.mem_append] at h
    have hi := depth_add_itemReach_le hdepth i fun s hs => h s (.inl hs)
    have his := depth_add_mostReach_le hdepth is fun s hs => h s (.inr hs)
    rw [Declaration.mostReach]
    omega

end

end Item

variable {limit : Nesting.Limit} {depth : Nat}

theorem Declaration.depth_add_reach_le {most : Nat} (hdepth : depth ≤ most) {d : Declaration}
    (h : ∀ s ∈ d.statements, depth + argsReach s.args ≤ most + 1) : depth + d.reach ≤ most + 1 := by
  have hitems := Item.depth_add_mostReach_le hdepth d.items h
  cases d with
  | single i => simpa [reach, items, mostReach] using hitems
  | sequence is =>
    rw [reach]
    exact hitems

/-- A sound statement has no item of its body below the limit: the body has a statement, and
    that one stands within it. -/
theorem Statement.Sound.reach_le {s : Statement} (h : s.Sound limit depth) :
    depth + Declaration.argsReach s.args ≤ limit.depth + 1 := by
  induction h with
  | bare hdepth => simpa [Declaration.argsReach] using hdepth
  | @options depth _ _ _ options _ hdepth _ _ hmapping =>
    have hone (a b : Value) : Declaration.argsReach [a, b, options] = 1 := by
      cases options <;> first | rfl | cases hmapping
    rw [hone]
    omega
  | @composite depth _ _ _ body hdepth _ _ hne hbody _ ih =>
    have hnext : depth + 1 ≤ limit.depth := by
      obtain ⟨s, hs⟩ := List.exists_mem_of_ne_nil _ hne
      cases hbody s hs <;> assumption
    have hreach := Declaration.depth_add_reach_le hnext ih
    rw [Declaration.argsReach]
    omega

namespace Declaration

/-- What builds under a limit has no item below it. -/
theorem reach_le_of_builds {d : Declaration} {forest : List Field}
    (h : (d.toValue.buildForest limit).result = .ok forest) : d.reach ≤ limit.depth := by
  obtain ⟨ss, hss, hsound, -, -⟩ := (Value.builds_iff_statements _ _ _).mp h
  rw [Value.statements?_toValue, Option.some.injEq] at hss
  subst hss
  have hreach := depth_add_reach_le limit.one_le fun s hs => (hsound s hs).reach_le
  omega

/-- Under every limit the same documents build with the reader's check and without it, as the
    same declaration and into the same forest, whatever room the reader has for its calls. -/
theorem builds_with_check_iff_without (stack : Stack) (limit : Nesting.Limit) (document : Json) (d : Declaration)
    (forest : List Field) :
    (ofJson stack document = .ok d ∧ (d.toValue.buildForest limit).result = .ok forest) ↔
      (ofJsonUnchecked stack document = .ok d ∧ (d.toValue.buildForest limit).result = .ok forest) := by
  refine and_congr_left fun hbuilds => ?_
  have hreach := reach_le_of_builds hbuilds
  have hmost := limit.le_most
  have hkept := ofJsonWithin_eq_ok_iff stack 1 Nesting.most 1 (by decide) document.merged d
  show ofJsonWithin stack (some Nesting.most) 1 1 document.merged = .ok d ↔
    ofJsonWithin stack none 1 1 document.merged = .ok d
  rw [hkept]
  refine and_iff_left ?_
  omega

end Declaration

end FieldForest
