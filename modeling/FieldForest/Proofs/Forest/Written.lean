/-
  FieldForest.Proofs.Forest.Written — the statements that a text writes, and the fields read from it.

  A statement is written as a member of an object that stands where an item is wanted. Where that
  is follows from the place alone, so the objects that are looked into can be listed for every
  document, one with repeated keys as well. Reading merges the repeated keys before anything else,
  and that is the one place where a statement can get lost: behind it each of these objects has
  one member, and each statement has one field.

  Proved:
  - `sum_mergeMembers_le`: merging adds no weight to the members.
  - `statementCount_merged_le`: so it adds no statement.
  - `written_merged`: where no key is repeated, merging leaves the objects that are looked into.
  - `counted_of_describes`: what is described has a field for each statement, and each object that
    is looked into has one member.
  - `readForest_counts_statements`: the fields read from a text are the statements written in it.
-/
import Mathlib.Algebra.Order.BigOperators.Group.List
import Mathlib.Algebra.Order.Group.Nat
import Mathlib.Algebra.Ring.Nat
import FieldForest.Forest.Listing
import FieldForest.Proofs.Forest.Documents

namespace FieldForest

/-! ## Merging -/

namespace Json

variable {α : Type} (weight : Text × α → Nat)

theorem sum_put_le (key : Text) (value : α) (members : List (Text × α)) :
    ((put key value members).map weight).sum ≤ (members.map weight).sum + weight (key, value) := by
  induction members with
  | nil => simp [put]
  | cons m rest ih =>
    obtain ⟨k, v⟩ := m
    rw [put]
    by_cases hk : k = key
    · simp only [if_pos hk, List.map_cons, List.sum_cons]
      omega
    · simp only [if_neg hk, List.map_cons, List.sum_cons]
      omega

/-- The members that are left weigh no more than those that were there. -/
theorem sum_mergeMembers_le (members : List (Text × α)) :
    ((mergeMembers members).map weight).sum ≤ (members.map weight).sum := by
  have hstep (rest merged : List (Text × α)) :
      ((rest.foldl (fun merged m => put m.1 m.2 merged) merged).map weight).sum ≤
        (merged.map weight).sum + (rest.map weight).sum := by
    induction rest generalizing merged with
    | nil => simp
    | cons m rest ih =>
      have hput := sum_put_le weight m.1 m.2 merged
      have hrest := ih (put m.1 m.2 merged)
      have hm : weight (m.1, m.2) = weight m := rfl
      rw [List.foldl_cons, List.map_cons, List.sum_cons]
      omega
  have hmerge := hstep members []
  rw [List.map_nil, List.sum_nil, Nat.zero_add] at hmerge
  exact hmerge

end Json

namespace Declaration

open Json (mergeMembers mergeMembers_spec mergeMembers_of_nodup mergedElements_eq_map mergedMembers_eq_map)

/-! ## The objects that are looked into -/

/-- What a value of a document is there for. -/
inductive Role where
  /-- The whole document, or the value of a body. -/
  | declaration
  | item
  /-- The value of the member of an item with this key. -/
  | member (key : Text)
  /-- The last of the three arguments of a statement. -/
  | last
  /-- Whatever is kept as it is. -/
  | other

/-- An object that is looked into, with its members as they are written: an item, or else what
    holds a body. -/
structure Written where
  isItem : Bool
  members : List (Text × Json)

/-- A member with a list under a key that is no block's. -/
def isStatement : Text × Json → Bool
  | (key, .array _) => key != blockKey
  | _ => false

namespace Written

def keys (w : Written) : List Text := w.members.map Prod.fst

/-- The statements among the members of an item, counted. -/
def statements (w : Written) : Nat := if w.isItem then w.members.countP isStatement else 0

end Written

/-- Whether an object with these keys is an item, and what the values of its members are there for;
    none if the object is not looked into. -/
def Role.look (keys : List Text) : Role → Option (Bool × (Text → Role))
  | .declaration => some (true, .member)
  | .item => some (true, .member)
  | .last =>
    if bodyKey ∈ keys then some (false, fun key => if key = bodyKey then .declaration else .other) else none
  | .member _ => none
  | .other => none

/-- The one of three that comes last. -/
def lastOfThree {α : Type} : List α → List α
  | [_, _, x] => [x]
  | _ => []

/-- The elements of a list that may hold objects that are looked into. -/
def Role.kept {α : Type} (elements : List α) : Role → List α
  | .declaration => elements
  | .member key => if key = blockKey then elements else lastOfThree elements
  | _ => []

/-- What those elements are there for. -/
def Role.ofElements : Role → Role
  | .declaration => .item
  | .member key => if key = blockKey then .item else .last
  | _ => .other

mutual

/-- The objects in a value that are looked into, each in front of those inside it. -/
def written : Role → Json → List Written
  | role, .object members => match role.look (members.map Prod.fst) with
    | some (isItem, inner) => ⟨isItem, members⟩ :: writtenMembers inner members
    | none => []
  | .declaration, .array elements => writtenElements elements
  | .member key, .array elements => if key = blockKey then writtenElements elements else writtenArgs elements
  | _, _ => []

def writtenMembers (inner : Text → Role) : List (Text × Json) → List Written
  | [] => []
  | (key, x) :: rest => written (inner key) x ++ writtenMembers inner rest

/-- Those of the elements of a list of items. -/
def writtenElements : List Json → List Written
  | [] => []
  | x :: xs => written .item x ++ writtenElements xs

def writtenArgs : List Json → List Written
  | [_, _, x] => written .last x
  | _ => []

end

def statementCount (ws : List Written) : Nat := (ws.map Written.statements).sum

/-- The statements that a document writes, counted with those that merging leaves out. -/
def statementsWritten (document : Json) : Nat := statementCount (written .declaration document)

theorem writtenMembers_eq_flatMap (inner : Text → Role) (members : List (Text × Json)) :
    writtenMembers inner members = members.flatMap fun m => written (inner m.1) m.2 := by
  induction members with
  | nil => rfl
  | cons m rest ih => rw [writtenMembers, ih, List.flatMap_cons]

theorem writtenElements_eq_flatMap (elements : List Json) :
    writtenElements elements = elements.flatMap (written .item) := by
  induction elements with
  | nil => rfl
  | cons x xs ih => rw [writtenElements, ih, List.flatMap_cons]

theorem writtenArgs_eq_flatMap (args : List Json) : writtenArgs args = (lastOfThree args).flatMap (written .last) := by
  fun_cases lastOfThree args with
  | case1 name type x => rw [writtenArgs, List.flatMap_singleton]
  | case2 args hargs => rw [writtenArgs, List.flatMap_nil]; exact hargs

section

variable {role : Role} {members : List (Text × Json)}

theorem written_object {isItem : Bool} {inner : Text → Role}
    (h : role.look (members.map Prod.fst) = some (isItem, inner)) :
    written role (.object members) = ⟨isItem, members⟩ :: members.flatMap fun m => written (inner m.1) m.2 := by
  rw [written, h]
  exact congrArg _ (writtenMembers_eq_flatMap inner members)

theorem written_object_of_none (h : role.look (members.map Prod.fst) = none) : written role (.object members) = [] := by
  rw [written, h]

theorem written_array (role : Role) (elements : List Json) :
    written role (.array elements) = (role.kept elements).flatMap (written role.ofElements) := by
  cases role with
  | declaration => exact writtenElements_eq_flatMap elements
  | member key =>
    rw [written, Role.kept, Role.ofElements]
    by_cases hkey : key = blockKey
    · rw [if_pos hkey, if_pos hkey, if_pos hkey, writtenElements_eq_flatMap]
    · rw [if_neg hkey, if_neg hkey, if_neg hkey, writtenArgs_eq_flatMap]
  | _ => rfl

theorem lastOfThree_map {α β : Type} (f : α → β) (xs : List α) : lastOfThree (xs.map f) = (lastOfThree xs).map f := by
  rcases xs with _ | ⟨a, _ | ⟨b, _ | ⟨c, _ | ⟨d, xs⟩⟩⟩⟩ <;> rfl

theorem eq_of_mem_lastOfThree {α : Type} {x : α} {xs : List α} (h : x ∈ lastOfThree xs) : ∃ a b, xs = [a, b, x] := by
  fun_cases lastOfThree xs with
  | case1 a b c =>
    obtain rfl := List.mem_singleton.mp h
    exact ⟨a, b, rfl⟩
  | case2 xs hxs =>
    rw [lastOfThree] at h
    · cases h
    · exact hxs

theorem Role.kept_map {α β : Type} (role : Role) (f : α → β) (xs : List α) :
    role.kept (xs.map f) = (role.kept xs).map f := by
  cases role with
  | member key =>
    by_cases hkey : key = blockKey
    · rw [kept, kept, if_pos hkey, if_pos hkey]
    · rw [kept, kept, if_neg hkey, if_neg hkey, lastOfThree_map]
  | _ => rfl

theorem Role.mem_of_mem_kept {α : Type} {role : Role} {x : α} {xs : List α} (h : x ∈ role.kept xs) : x ∈ xs := by
  cases role with
  | declaration => exact h
  | member key =>
    rw [kept] at h
    split at h
    · exact h
    · obtain ⟨a, b, rfl⟩ := eq_of_mem_lastOfThree h
      simp
  | _ => cases h

/-- With more keys an object is still looked into, and in the same way. -/
theorem Role.look_mono {keys more : List Text} (hkeys : ∀ k ∈ keys, k ∈ more) {found : Bool × (Text → Role)}
    (h : role.look keys = some found) : role.look more = some found := by
  cases role with
  | last =>
    rw [Role.look] at h ⊢
    by_cases hbody : bodyKey ∈ keys
    · rw [if_pos hbody] at h
      rw [if_pos (hkeys _ hbody), h]
    · rw [if_neg hbody] at h
      cases h
  | _ => exact h

/-- With fewer keys an object that is not looked into still is not. -/
theorem Role.look_eq_none_of_fewer {keys more : List Text} (hkeys : ∀ k ∈ keys, k ∈ more) (h : role.look more = none) :
    role.look keys = none := by
  cases hlook : role.look keys with
  | none => rfl
  | some found =>
    have hfound := Role.look_mono hkeys hlook
    rw [h] at hfound
    cases hfound

end

/-! ## Counting -/

@[simp] theorem statementCount_nil : statementCount [] = 0 := rfl

@[simp] theorem statementCount_cons (w : Written) (ws : List Written) :
    statementCount (w :: ws) = w.statements + statementCount ws := by
  rw [statementCount, List.map_cons, List.sum_cons, statementCount]

@[simp] theorem statementCount_append (ws vs : List Written) :
    statementCount (ws ++ vs) = statementCount ws + statementCount vs := by
  rw [statementCount, List.map_append, List.sum_append, statementCount, statementCount]

theorem statementCount_flatMap_le {α : Type} {xs : List α} {f g : α → List Written}
    (h : ∀ x ∈ xs, statementCount (f x) ≤ statementCount (g x)) :
    statementCount (xs.flatMap f) ≤ statementCount (xs.flatMap g) := by
  induction xs with
  | nil => simp
  | cons x xs ih =>
    obtain ⟨hx, hxs⟩ := List.forall_mem_cons.mp h
    have hrest := ih hxs
    simp only [List.flatMap_cons, statementCount_append]
    omega

/-- What a member of an object that is looked into adds to the count. -/
def memberCount (isItem : Bool) (inner : Text → Role) (m : Text × Json) : Nat :=
  (if isItem && isStatement m then 1 else 0) + statementCount (written (inner m.1) m.2)

theorem statementCount_object (isItem : Bool) (inner : Text → Role) (members : List (Text × Json)) :
    statementCount (⟨isItem, members⟩ :: members.flatMap fun m => written (inner m.1) m.2) =
      (members.map (memberCount isItem inner)).sum := by
  induction members with
  | nil => cases isItem <;> rfl
  | cons m rest ih =>
    simp only [statementCount_cons, Written.statements] at ih
    simp only [List.flatMap_cons, List.map_cons, List.sum_cons, statementCount_cons, statementCount_append,
      Written.statements, memberCount, List.countP_cons]
    cases isItem with
    | false =>
      simp only [Bool.false_eq_true, if_false, Bool.false_and] at ih ⊢
      omega
    | true =>
      simp only [if_true, Bool.true_and] at ih ⊢
      omega

/-! ## Merging and the count -/

theorem isStatement_merged (m : Text × Json) : isStatement (m.1, m.2.merged) = isStatement m := by
  obtain ⟨key, x⟩ := m
  cases x <;> rfl

/-- The keys of an object whose members are merged. -/
theorem mem_keys_merged {members : List (Text × Json)} {key : Text}
    (h : key ∈ (mergeMembers (members.map fun m => (m.1, m.2.merged))).map Prod.fst) :
    key ∈ members.map Prod.fst := by
  obtain ⟨m, hm, rfl⟩ := List.mem_map.mp h
  obtain ⟨n, hn, rfl⟩ := List.mem_map.mp ((mergeMembers_spec _).1 m hm)
  exact List.mem_map.mpr ⟨n, hn, rfl⟩

/-- Merging adds no statement. -/
theorem statementCount_merged_le (x : Json) :
    ∀ role, statementCount (written role x.merged) ≤ statementCount (written role x) := by
  induction x using Json.induction with
  | array elements ih =>
    intro role
    rw [Json.merged, mergedElements_eq_map, written_array, written_array, Role.kept_map, List.flatMap_map]
    exact statementCount_flatMap_le fun x hx => ih x (Role.mem_of_mem_kept hx) _
  | object members ih =>
    intro role
    rw [Json.merged, mergedMembers_eq_map]
    cases hlook : role.look ((mergeMembers (members.map fun m => (m.1, m.2.merged))).map Prod.fst) with
    | none =>
      rw [written_object_of_none hlook]
      exact Nat.zero_le _
    | some found =>
      obtain ⟨isItem, inner⟩ := found
      rw [written_object hlook, written_object (Role.look_mono (fun k hk => mem_keys_merged hk) hlook),
        statementCount_object, statementCount_object]
      refine Nat.le_trans (Json.sum_mergeMembers_le _ _) ?_
      rw [List.map_map]
      refine List.sum_le_sum fun m hm => ?_
      simp only [Function.comp_apply, memberCount, isStatement_merged]
      exact Nat.add_le_add_left (ih m hm _) _
  | _ => exact fun role => Nat.le_refl _

/-- The same object with its members merged inside. -/
def Written.merged (w : Written) : Written := { w with members := w.members.map fun m => (m.1, m.2.merged) }

theorem Written.statements_merged (w : Written) : w.merged.statements = w.statements := by
  have hmembers : (w.members.map fun m => (m.1, m.2.merged)).countP isStatement = w.members.countP isStatement := by
    rw [List.countP_map]
    exact List.countP_congr fun m _ => by rw [Function.comp_apply, isStatement_merged]
  rw [statements, statements, merged, hmembers]

theorem statementCount_map_merged (ws : List Written) : statementCount (ws.map Written.merged) = statementCount ws := by
  induction ws with
  | nil => rfl
  | cons w ws ih => rw [List.map_cons, statementCount_cons, statementCount_cons, Written.statements_merged, ih]

/-- Where none of the objects that are looked into repeats a key, merging leaves all of them there. -/
theorem written_merged (x : Json) :
    ∀ role, (∀ w ∈ written role x, w.keys.Nodup) → written role x.merged = (written role x).map Written.merged := by
  induction x using Json.induction with
  | array elements ih =>
    intro role h
    rw [written_array] at h ⊢
    rw [Json.merged, mergedElements_eq_map, written_array, Role.kept_map, List.flatMap_map, List.map_flatMap]
    refine List.flatMap_congr fun x hx => ih x (Role.mem_of_mem_kept hx) _ fun w hw => ?_
    exact h w (List.mem_flatMap_of_mem hx hw)
  | object members ih =>
    intro role h
    rw [Json.merged, mergedMembers_eq_map]
    cases hlook : role.look (members.map Prod.fst) with
    | none =>
      rw [written_object_of_none hlook, List.map_nil]
      exact written_object_of_none (Role.look_eq_none_of_fewer (fun k hk => mem_keys_merged hk) hlook)
    | some found =>
      obtain ⟨isItem, inner⟩ := found
      have hkeys : (members.map fun m => (m.1, m.2.merged)).map Prod.fst = members.map Prod.fst := by
        rw [List.map_map]
        rfl
      have hlook' : role.look ((members.map fun m => (m.1, m.2.merged)).map Prod.fst) = some (isItem, inner) := by
        rw [hkeys, hlook]
      rw [written_object hlook] at h ⊢
      obtain ⟨hnodup, hinside⟩ := List.forall_mem_cons.mp h
      have hnodup' : ((members.map fun m => (m.1, m.2.merged)).map Prod.fst).Nodup := by
        rw [hkeys]
        exact hnodup
      rw [mergeMembers_of_nodup hnodup', written_object hlook', List.map_cons, List.flatMap_map, List.map_flatMap]
      refine congrArg _ (List.flatMap_congr fun m hm => ih m hm _ fun w hw => ?_)
      exact hinside w (List.mem_flatMap_of_mem hm hw)
  | _ => exact fun role h => rfl

/-! ## What is described -/

/-- Each of the objects has one member, and they write so many statements. -/
structure Counted (ws : List Written) (count : Nat) : Prop where
  length_eq_one : ∀ w ∈ ws, w.members.length = 1
  count_eq : statementCount ws = count

namespace Counted

variable {ws vs : List Written} {n m : Nat}

theorem nil : Counted [] 0 := ⟨List.forall_mem_nil _, rfl⟩

theorem append (hws : Counted ws n) (hvs : Counted vs m) : Counted (ws ++ vs) (n + m) := by
  refine ⟨List.forall_mem_append.mpr ⟨hws.length_eq_one, hvs.length_eq_one⟩, ?_⟩
  rw [statementCount_append, hws.count_eq, hvs.count_eq]

/-- An object with one member in front of those inside it. -/
theorem cons {w : Written} (hw : w.members.length = 1) (hws : Counted ws n) : Counted (w :: ws) (w.statements + n) := by
  refine ⟨List.forall_mem_cons.mpr ⟨hw, hws.length_eq_one⟩, ?_⟩
  rw [statementCount_cons, hws.count_eq]

end Counted

section

variable {n : Nat}

theorem counted_block {elements : List Json} (h : Counted (elements.flatMap (written .item)) n) :
    Counted (written .item (.object [(blockKey, .array elements)])) n := by
  have hnone : Written.statements ⟨true, [(blockKey, .array elements)]⟩ = 0 := rfl
  have hcounted := h.cons (w := ⟨true, [(blockKey, .array elements)]⟩) rfl
  rw [hnone, Nat.zero_add] at hcounted
  rw [written_object rfl, List.flatMap_singleton, written_array]
  exact hcounted

theorem counted_statement {key : Text} (hkey : key ≠ blockKey) {args : List Json}
    (h : Counted ((lastOfThree args).flatMap (written .last)) n) :
    Counted (written .item (.object [(key, .array args)])) (1 + n) := by
  have hone : Written.statements ⟨true, [(key, .array args)]⟩ = 1 := by
    simp [Written.statements, isStatement, hkey]
  have hcounted := h.cons (w := ⟨true, [(key, .array args)]⟩) rfl
  rw [hone] at hcounted
  rw [written_object rfl, List.flatMap_singleton, written_array, Role.kept, Role.ofElements, if_neg hkey, if_neg hkey]
  exact hcounted

theorem counted_body {x : Json} (h : Counted (written .declaration x) n) :
    Counted (written .last (.object [(bodyKey, x)])) n := by
  have hlook : Role.look ([(bodyKey, x)].map Prod.fst) .last =
      some (false, fun key => if key = bodyKey then .declaration else .other) := by
    rw [Role.look, List.map_singleton, if_pos List.mem_cons_self]
  have hnone : Written.statements ⟨false, [(bodyKey, x)]⟩ = 0 := rfl
  have hcounted := h.cons (w := ⟨false, [(bodyKey, x)]⟩) rfl
  rw [hnone, Nat.zero_add] at hcounted
  rw [written_object hlook, List.flatMap_singleton, if_pos rfl]
  exact hcounted

end

/-- Without a body no argument is looked into. -/
theorem flatMap_lastOfThree_plain {args : List Json} (h : ¬ HoldsBody args) :
    (lastOfThree args).flatMap (written .last) = [] := by
  refine List.flatMap_eq_nil_iff.mpr fun x hx => ?_
  obtain ⟨name, type, rfl⟩ := eq_of_mem_lastOfThree hx
  cases x with
  | object members =>
    refine written_object_of_none (if_neg fun hbody => ?_)
    exact h ⟨name, type, members, rfl, hbody⟩
  | _ => rfl

/-- Arguments that are kept as they are have no body. -/
theorem body_map_ofJson (keyword : Text) (args : List Json) : Statement.body ⟨keyword, args.map .ofJson⟩ = [] := by
  unfold Statement.body
  split
  · rename_i body heq
    obtain ⟨-, hargs⟩ := Statement.mk.inj heq
    have hnested : Value.nested body ∈ args.map Value.ofJson := by simp [hargs]
    obtain ⟨x, -, hx⟩ := List.mem_map.mp hnested
    cases x <;> cases hx
  · rfl

theorem size_map_field_append (ss ts : List Statement) :
    Forest.size ((ss ++ ts).map Statement.field) =
      Forest.size (ss.map Statement.field) + Forest.size (ts.map Statement.field) := by
  induction ss with
  | nil => simp [Forest.size]
  | cons s ss ih =>
    simp only [List.cons_append, List.map_cons, Forest.size, ih]
    omega

/-- The field of a statement and the fields below it. -/
theorem size_map_field_singleton (s : Statement) :
    Forest.size ([s].map Statement.field) = 1 + Forest.size (s.body.map Statement.field) := by
  rw [List.map_singleton, Statement.field_eq, Forest.size, Forest.fieldSize, Forest.size, Nat.add_zero]

section

open Item (allStatements)
open Statement (body field)

mutual

theorem counted_of_describesItem {depth : Nat} : ∀ {x : Json} {i : Item}, DescribesItem depth x i →
    Counted (written .item x) (Forest.size (i.statements.map field))
  | _, _, .block _ hitems => by
    rw [Item.statements]
    exact counted_block (counted_of_describesItems hitems)
  | _, _, .statement _ hkey hargs => by
    rw [Item.statements, size_map_field_singleton]
    exact counted_statement hkey (counted_of_describesArgs hargs)

theorem counted_of_describesItems {depth : Nat} : ∀ {xs : List Json} {is : List Item}, DescribesItems depth xs is →
    Counted (xs.flatMap (written .item)) (Forest.size ((allStatements is).map field))
  | _, _, .nil => .nil
  | _, _, .cons hi his => by
    rw [List.flatMap_cons, allStatements, size_map_field_append]
    exact (counted_of_describesItem hi).append (counted_of_describesItems his)

theorem counted_of_describesArgs {depth : Nat} {keyword : Text} : ∀ {args : List Json} {values : List Value},
    DescribesArgs depth args values →
      Counted ((lastOfThree args).flatMap (written .last)) (Forest.size ((body ⟨keyword, values⟩).map field))
  | _, _, .plain hplain => by
    rw [flatMap_lastOfThree_plain hplain, body_map_ofJson]
    exact .nil
  | _, _, .body hd => by
    rw [lastOfThree, List.flatMap_singleton]
    exact counted_body (counted_of_describes hd)

/-- What is described has a field for each statement that is written. -/
theorem counted_of_describes {depth : Nat} : ∀ {x : Json} {d : Declaration}, Describes depth x d →
    Counted (written .declaration x) (Forest.size (d.statements.map field))
  | _, _, .sequence hitems => by
    rw [written_array]
    exact counted_of_describesItems hitems
  | x, .single i, .single hi => by
    -- only an object is an item, and alone it is looked into as one among others
    have hwritten : written .declaration x = written .item x := by cases hi <;> rfl
    rw [statements, items, allStatements, allStatements, List.append_nil, hwritten]
    exact counted_of_describesItem hi

end

end

/-! ## Forests that are read -/

/-- A document is the only one that its text writes. -/
theorem eq_of_documentText {limits : Json.Limits} {source : Text} {document x : Json}
    (hread : Json.read limits source = .ok document) (hx : x.Readable limits)
    (htext : Json.DocumentText limits x source) : x = document := by
  rw [Json.read_of_documentText htext hx] at hread
  split at hread
  · exact Except.ok.inj hread
  · cases hread

theorem counted_of_readForest {stack : Stack} {depth : Option Int} {source : Text} {forest : List Field}
    (h : (readForest stack depth source).result = .ok forest) :
    ∃ document, Json.read stack.jsonLimits source = .ok document ∧
      Counted (written .declaration document.merged) (Forest.size forest) := by
  obtain ⟨document, d, limit, hread, hd, hbuilds⟩ := exists_document_of_readForest h
  have hdescribes := (exact_ofJson stack document).sound d hd
  obtain ⟨ss, hss, -, -, rfl⟩ := (Value.builds_iff_statements _ _ _).mp hbuilds
  rw [Value.statements?_toValue, Option.some.injEq] at hss
  subst hss
  exact ⟨document, hread, counted_of_describes hdescribes⟩

/-- A readable document is read from the text that is written for it, with the forest of what it
    describes. -/
theorem readForest_write {stack : Stack} {document : Json} (hreadable : document.Readable stack.jsonLimits)
    (hdepth : document.depth ≤ stack.json) (hcalls : isBeyond stack.calls document.merged.depth = false)
    {d : Declaration} (hd : Describes 1 document.merged d) {forest : List Field}
    (hforest : (d.toValue.declaredForest none).result = .ok forest) :
    Json.read stack.jsonLimits (document.write none) = .ok document ∧
      (readForest stack none (document.write none)).result = .ok forest := by
  have hread := Json.read_write (Json.Limits.takes_of_places rfl 17) hreadable hdepth none
  have hdeclares : read stack (document.write none) = .ok d :=
    read_eq_ok_iff_document.mpr ⟨document, hread, ofJson_of_describes hcalls hd⟩
  refine ⟨hread, ?_⟩
  rw [Call.result_readForest, hdeclares]
  exact hforest

/-- A text that a forest is read from writes a document, and the forest has a field for each of its
    statements that merging leaves, each in an object with one member. None is lost, and none of the
    objects that are looked into is written with more than one member, if none of them repeats a key. -/
theorem readForest_counts_statements {stack : Stack} {depth : Option Int} {source : Text} {forest : List Field}
    (h : (readForest stack depth source).result = .ok forest) :
    ∃ document, Json.read stack.jsonLimits source = .ok document ∧
      (∀ x : Json, x.Readable stack.jsonLimits → Json.DocumentText stack.jsonLimits x source → x = document) ∧
      Forest.size forest = statementsWritten document.merged ∧
      (∀ w ∈ written .declaration document.merged, w.members.length = 1) ∧
      Forest.size forest ≤ statementsWritten document ∧
      ((∀ w ∈ written .declaration document, w.keys.Nodup) →
        Forest.size forest = statementsWritten document ∧
          ∀ w ∈ written .declaration document, w.members.length = 1) := by
  obtain ⟨document, hread, hcounted⟩ := counted_of_readForest h
  have hsize : Forest.size forest = statementsWritten document.merged := hcounted.count_eq.symm
  refine ⟨document, hread, fun x hx htext => eq_of_documentText hread hx htext, hsize, hcounted.length_eq_one, ?_,
    fun hnodup => ⟨?_, ?_⟩⟩
  · rw [hsize]
    exact statementCount_merged_le document .declaration
  · rw [hsize, statementsWritten, written_merged document .declaration hnodup, statementCount_map_merged]
    rfl
  · intro w hw
    have hone := hcounted.length_eq_one w.merged
    rw [written_merged document .declaration hnodup] at hone
    simpa [Written.merged] using hone (List.mem_map_of_mem hw)

/-- A statement with a body, in a block. -/
def nestedStatements : Json :=
  .array [.object [(blockKey, .array [.object [("requires", .array [.text "a", .text "map",
    .object [(bodyKey, .object [("optional", .array [.text "b", .text "int"])])]])]])]]

theorem read_nestedStatements :
    Json.read Stack.usual.jsonLimits (nestedStatements.write none) = .ok nestedStatements ∧
      (readForest .usual none (nestedStatements.write none)).result =
        .ok [.mk "a" "map" [] true [] [.mk "b" "int" [] false [] []]] := by
  have hreadable : nestedStatements.Readable Stack.usual.jsonLimits := by
    refine .array (List.forall_mem_singleton.mpr (.object (List.forall_mem_singleton.mpr (.array ?_))))
    refine List.forall_mem_singleton.mpr (.object (List.forall_mem_singleton.mpr (.array ?_)))
    rw [List.forall_mem_cons, List.forall_mem_cons, List.forall_mem_singleton]
    refine ⟨.text "a", .text "map", .object (List.forall_mem_singleton.mpr (.object ?_))⟩
    exact List.forall_mem_singleton.mpr (.texts "b" "int")
  have hinner : Describes 2 (.object [("optional", .array [.text "b", .text "int"])])
      (.single (.statement "optional" [.text "b", .text "int"])) :=
    .single (.statement (by decide) (by decide) (.plain Call.not_holdsBody_bare))
  have hdescribes : Describes 1 nestedStatements.merged (.sequence [.block [.statement "requires"
      [.text "a", .text "map", .nested (.single (.statement "optional" [.text "b", .text "int"]))]]]) :=
    .sequence (.cons (.block (by decide) (.cons (.statement (by decide) (by decide) (.body hinner)) .nil)) .nil)
  exact readForest_write hreadable (by decide) (by decide) hdescribes rfl

/-- Both statements have a field. -/
theorem readForest_counts_nested_statements :
    (readForest .usual none (nestedStatements.write none)).result =
        .ok [.mk "a" "map" [] true [] [.mk "b" "int" [] false [] []]] ∧
      Forest.size [.mk "a" "map" [] true [] [.mk "b" "int" [] false [] []]] = statementsWritten nestedStatements ∧
      statementsWritten nestedStatements = 2 ∧ ∀ w ∈ written .declaration nestedStatements, w.members.length = 1 := by
  obtain ⟨hread, hforest⟩ := read_nestedStatements
  obtain ⟨document, hdocument, -, -, -, -, hnodup⟩ := readForest_counts_statements hforest
  cases hread.symm.trans hdocument
  obtain ⟨hsize, hone⟩ := hnodup (by decide)
  exact ⟨hforest, hsize, rfl, hone⟩

/-- An object with the same keyword twice. -/
def repeatedKeyword : Json :=
  .object [("requires", .array [.text "a", .text "int"]), ("requires", .array [.text "b", .text "int"])]

/-- It is read as one statement: the first is lost. -/
theorem repeated_keyword_loses_statement :
    Json.read Stack.usual.jsonLimits (repeatedKeyword.write none) = .ok repeatedKeyword ∧
      (readForest .usual none (repeatedKeyword.write none)).result = .ok [.mk "b" "int" [] true [] []] ∧
      Forest.size [.mk "b" "int" [] true [] []] = 1 ∧ statementsWritten repeatedKeyword = 2 ∧
      ∃ w ∈ written .declaration repeatedKeyword, w.isItem = true ∧ w.members.length = 2 := by
  have hreadable : repeatedKeyword.Readable Stack.usual.jsonLimits := by
    refine .object ?_
    rw [List.forall_mem_cons, List.forall_mem_singleton]
    exact ⟨.texts "a" "int", .texts "b" "int"⟩
  have hdescribes : Describes 1 repeatedKeyword.merged (.single (.statement "requires" [.text "b", .text "int"])) :=
    .single (.statement (by decide) (by decide) (.plain Call.not_holdsBody_bare))
  obtain ⟨hread, hforest⟩ := readForest_write hreadable (by decide) (by decide) hdescribes rfl
  exact ⟨hread, hforest, rfl, rfl, _, List.mem_cons_self, rfl, rfl⟩

end Declaration

end FieldForest
