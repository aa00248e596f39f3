/-
  FieldForest.Proofs.Declaration.Calls — calls and the documents that say the same.

  An expression of calls makes an item from the inside out, with the checks of each call. Its
  document is read from the outside in, with a count of levels. What both give is one and the
  same, so it is enough to follow the expression: the item that it makes is the one that its
  document describes, as long as nothing stands below the deepest level.

  Proved:
  - `describes_form`: a plain expression makes an item, and its document describes that item.
  - `read_of_form` / `read_of_deep_form`: each text of the document is read as that item, as far as there is room,
    or found to nest too deep.
  - `reads_what_is_called`: so an expression and a text of its document declare the same forest.
  - `deepDefault_unread`: options can nest so deep that no text of the document is read.
-/
import FieldForest.Declaration.Calls
import FieldForest.Forest.Declared
import FieldForest.Proofs.Declaration.Grammar

namespace FieldForest

/-! ## Plain documents -/

/-- A document as a dictionary in a program has it: no key stands twice in an object, and its
    numbers are finite and not too long. -/
inductive Json.Plain (limits : Limits) : Json → Prop
  | null : Plain limits .null
  | bool (b : Bool) : Plain limits (.bool b)
  | int {n : Int} : limits.Admits n → Plain limits (.int n)
  | float (negative : Bool) (size : Magnitude) : Plain limits (.float (.finite negative size))
  | text (t : Text) : Plain limits (.text t)
  | array {elements : List Json} : (∀ x ∈ elements, Plain limits x) → Plain limits (.array elements)
  | object {members : List (Text × Json)} : (members.map Prod.fst).Nodup → (∀ m ∈ members, Plain limits m.2) →
      Plain limits (.object members)

namespace Json.Plain

variable {limits : Limits} {x : Json}

theorem readable (h : x.Plain limits) : x.Readable limits := by
  induction h with
  | null => exact .null
  | bool b => exact .bool b
  | int hn => exact .int hn
  | float negative size => exact .float negative size
  | text t => exact .text t
  | array _ ih => exact .array ih
  | object _ _ ih => exact .object ih

theorem merged_eq (h : x.Plain limits) : x.merged = x := by
  induction h with
  | null | bool | int | float | text => rfl
  | array _ ih => exact merged_array ih
  | object hkeys _ ih => exact merged_object ih hkeys

/-- An object is plain if it has one member, and that a list of plain documents. -/
theorem statement {key : Text} {args : List Json} (h : ∀ x ∈ args, x.Plain limits) :
    (Json.object [(key, .array args)]).Plain limits :=
  .object (List.pairwise_singleton _ _) (List.forall_mem_singleton.mpr (.array h))

end Json.Plain

/-! ## Expressions -/

mutual

/-- An expression that makes a statement or a block; a statement has options, or a body, or neither. -/
inductive Call where
  | bare (keyword : Keyword) (name type : Json)
  | options (keyword : Keyword) (name type : Json) (members : List (Text × Json))
  | composite (keyword : Keyword) (name type : Json) (body : Body)
  | block (calls : List Call)

/-- What is given as a body: one expression, or a list or tuple of them. -/
inductive Body where
  | one (call : Call)
  | list (calls : List Call)
  | tuple (calls : List Call)

end

namespace Call

mutual

/-- The item that an expression makes. -/
def item? : Call → Except CallError Item
  | .bare keyword name type => Item.declare keyword (.ofJson name) (.ofJson type) .none .none
  | .options keyword name type members =>
    Item.declare keyword (.ofJson name) (.ofJson type) (.ofJson (.object members)) .none
  | .composite keyword name type body => do
    let body ← bodyValue? body
    Item.declare keyword (.ofJson name) (.ofJson type) .none body
  | .block calls => do
    let items ← items? calls
    (Item.blockOf (.list (items.map .item))).mapError .body

def items? : List Call → Except CallError (List Item)
  | [] => .ok []
  | c :: cs => do
    let i ← item? c
    let is ← items? cs
    .ok (i :: is)

def bodyValue? : Body → Except CallError Value
  | .one call => do
    let i ← item? call
    .ok (.item i)
  | .list calls => do
    let items ← items? calls
    .ok (.list (items.map .item))
  | .tuple calls => do
    let items ← items? calls
    .ok (.tuple (items.map .item))

end

mutual

/-- The document that says what an expression says. -/
def form : Call → Json
  | .bare keyword name type => .object [(keyword.name, .array [name, type])]
  | .options keyword name type members => .object [(keyword.name, .array [name, type, .object members])]
  | .composite keyword name type body =>
    .object [(keyword.name, .array [name, type, .object [(Declaration.bodyKey, bodyForm body)]])]
  | .block calls => .object [(Declaration.blockKey, .array (forms calls))]

def forms : List Call → List Json
  | [] => []
  | c :: cs => form c :: forms cs

def bodyForm : Body → Json
  | .one call => form call
  | .list calls => .array (forms calls)
  | .tuple calls => .array (forms calls)

end

mutual

/-- How many levels the statements and blocks of an expression take. -/
def levels : Call → Nat
  | .bare _ _ _ => 1
  | .options _ _ _ _ => 1
  | .composite _ _ _ body => 1 + bodyLevels body
  | .block calls => max 1 (mostLevels calls)

def mostLevels : List Call → Nat
  | [] => 0
  | c :: cs => max (levels c) (mostLevels cs)

def bodyLevels : Body → Nat
  | .one call => levels call
  | .list calls => mostLevels calls
  | .tuple calls => mostLevels calls

end

mutual

/-- Names, types and options are plain, and no option has the key of a body. -/
def Plain (limits : Json.Limits) : Call → Prop
  | .bare _ name type => name.Plain limits ∧ type.Plain limits
  | .options _ name type members =>
    name.Plain limits ∧ type.Plain limits ∧ (Json.object members).Plain limits ∧
      Declaration.bodyKey ∉ members.map Prod.fst
  | .composite _ name type body => name.Plain limits ∧ type.Plain limits ∧ PlainBody limits body
  | .block calls => AllPlain limits calls

def AllPlain (limits : Json.Limits) : List Call → Prop
  | [] => True
  | c :: cs => Plain limits c ∧ AllPlain limits cs

def PlainBody (limits : Json.Limits) : Body → Prop
  | .one call => Plain limits call
  | .list calls => AllPlain limits calls
  | .tuple calls => AllPlain limits calls

end

/-! ## Documents of expressions -/

variable {limits : Json.Limits}

mutual

/-- The document of a plain expression is plain. -/
theorem plain_form : ∀ {call : Call}, call.Plain limits → call.form.Plain limits
  | .bare _ _ _, ⟨hname, htype⟩ => by
    rw [form]
    exact .statement (List.forall_mem_cons.mpr ⟨hname, List.forall_mem_singleton.mpr htype⟩)
  | .options _ _ _ _, ⟨hname, htype, hmembers, _⟩ => by
    rw [form]
    refine .statement (List.forall_mem_cons.mpr ⟨hname, List.forall_mem_cons.mpr ⟨htype, ?_⟩⟩)
    exact List.forall_mem_singleton.mpr hmembers
  | .composite _ _ _ _, ⟨hname, htype, hbody⟩ => by
    have hform := List.forall_mem_singleton.mpr (plain_bodyForm hbody)
    rw [form]
    refine .statement (List.forall_mem_cons.mpr ⟨hname, List.forall_mem_cons.mpr ⟨htype, ?_⟩⟩)
    exact List.forall_mem_singleton.mpr (.object (List.pairwise_singleton _ _) (List.forall_mem_singleton.mpr
      (hform _ (List.mem_singleton_self _))))
  | .block _, h => by
    rw [form]
    exact .statement (plain_forms h)

theorem plain_forms : ∀ {calls : List Call}, AllPlain limits calls → ∀ x ∈ forms calls, x.Plain limits
  | [], _ => List.forall_mem_nil _
  | _ :: _, ⟨hc, hcs⟩ => List.forall_mem_cons.mpr ⟨plain_form hc, plain_forms hcs⟩

theorem plain_bodyForm : ∀ {body : Body}, PlainBody limits body → (bodyForm body).Plain limits
  | .one _, h => plain_form h
  | .list _, h => .array (plain_forms h)
  | .tuple _, h => .array (plain_forms h)

end

/-! ## Items of expressions -/

open Declaration

theorem name_ne_blockKey (keyword : Keyword) : keyword.name ≠ blockKey := by
  cases keyword <;> decide

theorem declare_body (keyword : Keyword) (name type : Value) {v : Value} {d : Declaration}
    (h : bodyOf v = .ok d) :
    Item.declare keyword name type .none v = .ok (.statement keyword.name [name, type, .nested d]) := by
  cases v with
  | none => cases h
  | _ => simp only [Item.declare, h]

/-- Options that hold no body are kept as they are. -/
theorem not_holdsBody_options {name type : Json} {members : List (Text × Json)}
    (h : bodyKey ∉ members.map Prod.fst) : ¬ HoldsBody [name, type, .object members] := by
  rintro ⟨name', type', members', heq, hmem⟩
  cases heq
  exact h hmem

theorem not_holdsBody_bare {name type : Json} : ¬ HoldsBody [name, type] := by
  rintro ⟨name', type', members, heq, -⟩
  cases heq

mutual

/-- A plain expression makes an item, and its document describes it where there are levels enough. -/
theorem describes_form : ∀ {call : Call}, call.Plain limits →
    ∃ i, call.item? = .ok i ∧ ∀ depth, depth + call.levels ≤ Nesting.most + 1 → DescribesItem depth call.form i
  | .bare keyword name type, _ => by
    refine ⟨.statement keyword.name [.ofJson name, .ofJson type], rfl, fun depth hdepth => ?_⟩
    rw [levels] at hdepth
    rw [form]
    exact .statement (by omega) (name_ne_blockKey keyword) (.plain not_holdsBody_bare)
  | .options keyword name type members, ⟨_, _, _, hbody⟩ => by
    refine ⟨.statement keyword.name [.ofJson name, .ofJson type, .ofJson (.object members)], rfl, fun depth hdepth => ?_⟩
    rw [levels] at hdepth
    rw [form]
    exact .statement (by omega) (name_ne_blockKey keyword) (.plain (not_holdsBody_options hbody))
  | .composite keyword name type body, ⟨_, _, hbody⟩ => by
    obtain ⟨v, d, hv, hd, hdescribes⟩ := describes_bodyForm hbody
    refine ⟨.statement keyword.name [.ofJson name, .ofJson type, .nested d], ?_, fun depth hdepth => ?_⟩
    · rw [item?, hv]
      exact declare_body keyword _ _ hd
    · rw [levels] at hdepth
      rw [form]
      exact .statement (by omega) (name_ne_blockKey keyword) (.body (hdescribes (depth + 1) (by omega)))
  | .block calls, h => by
    obtain ⟨is, his, hdescribes⟩ := describes_forms h
    refine ⟨.block is, ?_, fun depth hdepth => ?_⟩
    · rw [item?, his]
      simp only [bind, Except.bind, Item.blockOf_map_item]
      rfl
    · rw [levels] at hdepth
      rw [form]
      exact .block (by omega) (hdescribes depth (by omega))

theorem describes_forms : ∀ {calls : List Call}, AllPlain limits calls →
    ∃ is, items? calls = .ok is ∧
      ∀ depth, depth + mostLevels calls ≤ Nesting.most + 1 → DescribesItems depth (forms calls) is
  | [], _ => ⟨[], rfl, fun depth _ => .nil⟩
  | c :: cs, ⟨hc, hcs⟩ => by
    obtain ⟨i, hi, hitem⟩ := describes_form hc
    obtain ⟨is, his, hitems⟩ := describes_forms hcs
    refine ⟨i :: is, ?_, fun depth hdepth => ?_⟩
    · rw [items?, hi, his]
      rfl
    · rw [mostLevels] at hdepth
      exact .cons (hitem depth (by omega)) (hitems depth (by omega))

theorem describes_bodyForm : ∀ {body : Body}, PlainBody limits body →
    ∃ v d, bodyValue? body = .ok v ∧ bodyOf v = .ok d ∧
      ∀ depth, depth + bodyLevels body ≤ Nesting.most + 1 → Describes depth (bodyForm body) d
  | .one call, h => by
    have hplain : call.Plain limits := h
    obtain ⟨i, hi, hitem⟩ := describes_form hplain
    refine ⟨.item i, .single i, ?_, rfl, fun depth hdepth => .single (hitem depth hdepth)⟩
    rw [bodyValue?, hi]
    rfl
  | .list calls, h => by
    have hplain : AllPlain limits calls := h
    obtain ⟨is, his, hitems⟩ := describes_forms hplain
    refine ⟨.list (is.map .item), .sequence is, ?_, bodyOf_list_map_item is,
      fun depth hdepth => .sequence (hitems depth hdepth)⟩
    rw [bodyValue?, his]
    rfl
  | .tuple calls, h => by
    have hplain : AllPlain limits calls := h
    obtain ⟨is, his, hitems⟩ := describes_forms hplain
    refine ⟨.tuple (is.map .item), .sequence is, ?_, bodyOf_tuple_map_item is,
      fun depth hdepth => .sequence (hitems depth hdepth)⟩
    rw [bodyValue?, his]
    rfl

end

/-! ## Documents of expressions are read -/

section

variable {stack : Stack} {call : Call} {item : Item} {text : Text}

/-- A text of the document of a plain expression is read as the expression's item, if its levels
    are within those of JSON and of the calls for them. -/
theorem read_of_form (hplain : call.Plain stack.jsonLimits) (hlevels : call.levels ≤ Nesting.most)
    (hitem : call.item? = .ok item) (htext : Json.DocumentText stack.jsonLimits call.form text)
    (hdepth : call.form.depth ≤ stack.json) :
    read stack text = .ok (.single item) ∨
      (isBeyond stack.calls call.form.depth = true ∧ read stack text = .error .exhausted) := by
  have hform := plain_form hplain
  obtain ⟨i, hi, hdescribes⟩ := describes_form hplain
  obtain rfl : i = item := Except.ok.inj (hi.symm.trans hitem)
  have hdescribes : Describes 1 call.form.merged (.single i) := by
    rw [hform.merged_eq]
    exact .single (hdescribes 1 (by omega))
  have hjson : Json.read stack.jsonLimits text = .ok call.form := by
    rw [Json.read_of_documentText htext hform.readable]
    exact if_pos hdepth
  have hread : read stack text = ofJson stack call.form := by rw [Declaration.read, hjson]
  rw [hread]
  cases hcalls : isBeyond stack.calls call.form.depth with
  | false => exact .inl (ofJson_of_describes (by rwa [hform.merged_eq]) hdescribes)
  | true => exact ((exact_ofJson stack call.form).complete _ hdescribes).imp_right fun h => ⟨rfl, h⟩

theorem read_of_deep_form (hplain : call.Plain stack.jsonLimits)
    (htext : Json.DocumentText stack.jsonLimits call.form text) (hdepth : stack.json < call.form.depth) :
    read stack text = .error .tooDeep := by
  have hjson : Json.read stack.jsonLimits text = .error .tooDeep := by
    rw [Json.read_of_documentText htext (plain_form hplain).readable]
    exact if_neg (Nat.not_le.mpr hdepth)
  rw [Declaration.read, hjson]

end

/-- What is written for the document of a plain expression is a text of it. -/
theorem documentText_write_form {call : Call} (hplaces : limits.places = none) (hplain : call.Plain limits)
    (indent : Option Nat) : Json.DocumentText limits call.form (call.form.write indent) :=
  Json.documentText_write (Json.Limits.takes_of_places hplaces 17) (plain_form hplain).readable indent

/-- The forest of a text is that of what is read from it. -/
theorem result_readForest (stack : Stack) (depth : Option Int) (text : Text) :
    (readForest stack depth text).result =
      match read stack text with
      | .ok d => (d.toValue.declaredForest depth).result
      | .error e => .error (.unread e) := by
  unfold readForest readTraced
  cases read stack text <;> rfl

/-- A plain expression with no statement or block below the deepest level makes an item. Each text
    of its document is read as that item, and both declare the same forest or fail with the same
    error under every limit. There are two exceptions: a document that nests deeper than JSON is read is
    too deep, and the stack may give out on one that has more levels than it has calls. -/
theorem reads_what_is_called (stack : Stack) (call : Call) (hplain : call.Plain stack.jsonLimits)
    (hlevels : call.levels ≤ Nesting.most) :
    ∃ item, call.item? = .ok item ∧ ∀ text, Json.DocumentText stack.jsonLimits call.form text →
      (call.form.depth ≤ stack.json →
        (read stack text = .ok (.single item) ∧
          ∀ depth, (readForest stack depth text).result = ((Value.item item).declaredForest depth).result) ∨
        (isBeyond stack.calls call.form.depth = true ∧ read stack text = .error .exhausted)) ∧
      (stack.json < call.form.depth → read stack text = .error .tooDeep ∧
        ∀ depth, (readForest stack depth text).result = .error (.unread .tooDeep)) := by
  obtain ⟨item, hitem, -⟩ := describes_form hplain
  refine ⟨item, hitem, fun text htext => ⟨fun hdepth => ?_, fun hdepth => ?_⟩⟩
  · refine (read_of_form hplain hlevels hitem htext hdepth).imp_left fun hread => ⟨hread, fun depth => ?_⟩
    rw [result_readForest, hread]
    rfl
  · have hread := read_of_deep_form hplain htext hdepth
    refine ⟨hread, fun depth => ?_⟩
    rw [result_readForest, hread]

/-- A body of one field with options that are empty is read as it is called. -/
theorem reads_body_as_called :
    read .usual ((form (.composite .requires (.text "a") (.text "map")
        (.one (.options .optional (.text "b") (.text "int") [])))).write none) =
      .ok (.single (.statement "requires" [.text "a", .text "map", .nested (.single
        (.statement "optional" [.text "b", .text "int", .dict []]))])) := by
  let call : Call := .composite .requires (.text "a") (.text "map")
    (.one (.options .optional (.text "b") (.text "int") []))
  have hbody : PlainBody Stack.usual.jsonLimits (.one (.options .optional (.text "b") (.text "int") [])) :=
    ⟨.text _, .text _, .object List.nodup_nil (List.forall_mem_nil _), List.not_mem_nil⟩
  have hplain : call.Plain Stack.usual.jsonLimits := ⟨.text _, .text _, hbody⟩
  have htext := documentText_write_form rfl hplain none
  obtain ⟨item, hitem, hreads⟩ := reads_what_is_called .usual call hplain (by decide)
  have hdepth : call.form.depth ≤ Stack.usual.json := by decide
  rcases (hreads _ htext).1 hdepth with ⟨hread, -⟩ | ⟨hcalls, -⟩
  · cases hitem
    exact hread
  · have hroom : isBeyond Stack.usual.calls call.form.depth = false := Stack.calls_shared hdepth
    cases hroom.symm.trans hcalls

/-! ## Options that nest deeper than JSON is read -/

/-- A value in a list in a list, and so on. -/
def listsWithin (x : Json) : Nat → Json
  | 0 => x
  | n + 1 => .array [listsWithin x n]

theorem plain_listsWithin {x : Json} (hx : x.Plain limits) (n : Nat) : (listsWithin x n).Plain limits := by
  induction n with
  | zero => exact hx
  | succ n ih => exact .array (List.forall_mem_singleton.mpr ih)

theorem depth_listsWithin (x : Json) (n : Nat) : (listsWithin x n).depth = n + x.depth := by
  induction n with
  | zero => exact (Nat.zero_add _).symm
  | succ n ih =>
    rw [listsWithin, Json.depth, Json.mostDepth, ih, Json.mostDepth]
    omega

/-- A field of which the default is this. -/
def withDefault (x : Json) : Call := .options .requires (.text "a") (.text "list") [("default", x)]

theorem plain_withDefault {x : Json} (h : x.Plain limits) : (withDefault x).Plain limits := by
  have hkey : bodyKey ∉ [Text.ofString "default"] := by decide
  exact ⟨.text _, .text _, .object (List.pairwise_singleton _ _) (List.forall_mem_singleton.mpr h), hkey⟩

/-- Whatever its default is, the field is built. -/
theorem withDefault_builds (x : Json) :
    ∃ item, (withDefault x).item? = .ok item ∧
      ((Value.item item).declaredForest none).result =
        .ok [.mk "a" "list" [("default", .ofJson x)] true [] []] := by
  refine ⟨_, rfl, ?_⟩
  cases x <;> rfl

theorem depth_form_withDefault (x : Json) : (withDefault x).form.depth = x.depth + 3 := by
  simp only [withDefault, form, Json.depth, Json.mostDepth, Json.mostMemberDepth]
  omega

/-- A default of lists that nest 5000 levels deep. -/
def deepDefault : Call := withDefault (listsWithin (.array []) 4999)

/-- The field with that default is built, but no text of its document is read. -/
theorem deepDefault_unread :
    deepDefault.Plain Stack.usual.jsonLimits ∧ deepDefault.levels ≤ Nesting.most ∧
      (∃ item, deepDefault.item? = .ok item ∧ ((Value.item item).declaredForest none).result =
        .ok [.mk "a" "list" [("default", .ofJson (listsWithin (.array []) 4999))] true [] []]) ∧
      Json.DocumentText Stack.usual.jsonLimits deepDefault.form (deepDefault.form.write none) ∧
      read .usual (deepDefault.form.write none) = .error .tooDeep ∧
      (readForest .usual none (deepDefault.form.write none)).result = .error (.unread .tooDeep) := by
  have hplain : deepDefault.Plain Stack.usual.jsonLimits :=
    plain_withDefault (plain_listsWithin (.array (List.forall_mem_nil _)) 4999)
  have hlevels : deepDefault.levels ≤ Nesting.most := Nat.le_of_ble_eq_true rfl
  have htext := documentText_write_form rfl hplain none
  have hdepth : Stack.usual.json < deepDefault.form.depth := by
    rw [deepDefault, depth_form_withDefault, depth_listsWithin]
    decide
  have hread := read_of_deep_form hplain htext hdepth
  refine ⟨hplain, hlevels, withDefault_builds (listsWithin (.array []) 4999), htext, hread, ?_⟩
  rw [result_readForest, hread]

end Call

end FieldForest
