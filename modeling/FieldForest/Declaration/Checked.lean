/-
  FieldForest.Declaration.Checked — statements, blocks and bodies made from loose values.

  Parts of any kind are checked before something is made of them. All faults are collected,
  in the order of the parts, each with the path to the value at fault. Where a statement or a
  block is wanted, one that is there already passes, and a dictionary is taken for whichever
  it can be. If it can be both it is taken for a block if that makes use of more of its parts,
  those of dictionaries further inside included, and else for a statement; if it can be neither
  the faults of both readings count.
-/
import FieldForest.Value.Display
import FieldForest.Value.Elements

namespace FieldForest

/-- A step on the way to a value: into a named part, or to an element. -/
inductive Step where
  | name (t : Text)
  | index (n : Int)

inductive Problem where
  | missing
  | notText
  | notList
  | notTuple
  | notDict
  /-- A value of another kind stands where a declaration or a field is wanted. -/
  | notInstance
  /-- A text holds half of a surrogate pair without the other half. -/
  | loneSurrogate
  | invalidJson
  /-- The parts are sound, but together they break a rule, in these words. -/
  | rule (words : Text)

structure Fault where
  path : List Step
  problem : Problem

def Fault.under (step : Step) (f : Fault) : Fault := { f with path := step :: f.path }

/-- A value, or the faults for which there is none. -/
abbrev Checked (α : Type) := Except (List Fault) α

namespace Checked

variable {α β : Type}

def fault (path : List Step) (problem : Problem) : Checked α := .error [⟨path, problem⟩]

/-- Both values, or the faults of the one and then of the other. -/
def both : Checked α → Checked β → Checked (α × β)
  | .ok a, .ok b => .ok (a, b)
  | .ok _, .error fs => .error fs
  | .error fs, .ok _ => .error fs
  | .error fs, .error gs => .error (fs ++ gs)

/-- The same with every path led through one more step. -/
def under (step : Step) (x : Checked α) : Checked α := x.mapError (·.map (Fault.under step))

/-- A part that has to be there and to be a string. -/
def text (name : Text) : Option Value → Checked Text
  | some (.text t) => .ok t
  | some _ => fault [.name name] .notText
  | none => fault [.name name] .missing

end Checked

/-- The value of the entry with this name. -/
def Value.entry? (name : Text) : List (Value × Value) → Option Value
  | [] => .none
  | (.text k, v) :: rest => if k = name then some v else Value.entry? name rest
  | _ :: rest => Value.entry? name rest

namespace Item

/-- A statement from its parts; without arguments it has none. -/
def statementOf (keyword args : Option Value) : Checked Item :=
  let args : Checked (List Value) := match args with
    | none => .ok []
    | some v => match v.sequence? with
      | some xs => .ok xs
      | none => Checked.fault [.name "args"] .notList
  ((Checked.text "keyword" keyword).both args).map fun (keyword, args) => .statement keyword args

/-- The faults of a value that is neither a statement nor a block. -/
def noItem : List Fault := [⟨[.name "Statement"], .notInstance⟩, ⟨[.name "Block"], .notInstance⟩]

/-- The fault of a value that is no list; of named parts, none is an item. -/
def noSequence (v : Value) : List Fault :=
  match v.parts? with
  | some parts => (List.range parts.length).flatMap fun (i : Nat) => noItem.map (Fault.under (.index i))
  | none => [⟨[], .notList⟩]

mutual

/-- An item, or a dictionary of the parts of one, and how many parts of dictionaries are used. -/
def weighed : Value → Checked (Item × Nat)
  | .item i => .ok (i, 0)
  | .dict entries =>
    let args := Value.entry? "args" entries
    let used := if args.isSome then 2 else 1
    match statementOf (Value.entry? "keyword" entries) args, weighedStatements entries with
    | .ok s, .ok (items, n) => .ok (if used < n then (.block items, n) else (s, used))
    | .ok s, .error _ => .ok (s, used)
    | .error _, .ok (items, n) => .ok (.block items, n)
    | .error asStatement, .error asBlock =>
      .error (asStatement.map (Fault.under (.name "Statement")) ++ asBlock.map (Fault.under (.name "Block")))
  | _ => .error noItem

/-- The items in the entry `statements` of a dictionary, and how many parts are used; without it
    there are none. -/
def weighedStatements : List (Value × Value) → Checked (List Item × Nat)
  | [] => .ok ([], 0)
  | (.text k, v) :: rest =>
    if k = ("statements" : Text) then
      ((weighedSequence v).under (.name "statements")).map fun (items, n) => (items, n + 1)
    else weighedStatements rest
  | _ :: rest => weighedStatements rest

/-- The items of a list or tuple, and how many parts of dictionaries are used. -/
def weighedSequence : Value → Checked (List Item × Nat)
  | .list xs => weighedElements 0 xs
  | .tuple xs => weighedElements 0 xs
  | v => .error (noSequence v)

/-- Items from elements, the first of them being number `index`, and how many parts of
    dictionaries are used. -/
def weighedElements (index : Nat) : List Value → Checked (List Item × Nat)
  | [] => .ok ([], 0)
  | x :: xs =>
    (((weighed x).under (.index index)).both (weighedElements (index + 1) xs)).map fun ((i, m), (is, n)) =>
      (i :: is, m + n)

end

/-- An item, or a dictionary of the parts of one. -/
def ofValue (v : Value) : Checked Item := (weighed v).map (·.1)

/-- The items of a list or tuple. -/
def ofSequence (v : Value) : Checked (List Item) := (weighedSequence v).map (·.1)

/-- Items from elements, the first of them being number `index`. -/
def ofElements (index : Nat) (xs : List Value) : Checked (List Item) := (weighedElements index xs).map (·.1)

/-- A block from its statements. -/
def blockOf (statements : Value) : Checked Item :=
  ((ofSequence statements).under (.name "statements")).map .block

end Item

namespace Declaration

/-- The body of a composite statement: an item, a dictionary of the parts of one, or a list
    or tuple of items. -/
def bodyOf (body : Value) : Checked Declaration :=
  let asSequence : Step := .name "list[union[Statement,Block]]"
  Checked.under (.name "body") <|
    match body with
    | .list xs => sequenceOf asSequence xs
    | .tuple xs => sequenceOf asSequence xs
    | v => match Item.ofValue v with
      | .ok i => .ok (.single i)
      | .error fs => .error (fs ++ (Item.noSequence v).map (Fault.under asSequence))
where
  sequenceOf (asSequence : Step) (xs : List Value) : Checked Declaration :=
    match Item.ofElements 0 xs with
    | .ok items => .ok (.sequence items)
    | .error fs =>
      .error (Item.noItem ++ fs.map (Fault.under asSequence))

/-- The value that a declaration is on its own: an item or a list of them. -/
def toValue : Declaration → Value
  | .single item => .item item
  | .sequence items => .list (items.map .item)

/-- The name of the kind of that value. -/
def kind : Declaration → Text
  | .single (.statement _ _) => "Statement"
  | .single (.block _) => "Block"
  | .sequence _ => "list"

end Declaration

/-! ## Parts that are items already -/

namespace Item

theorem weighedElements_map_item (index : Nat) (items : List Item) :
    weighedElements index (items.map .item) = .ok (items, 0) := by
  induction items generalizing index with
  | nil => rfl
  | cons i is ih =>
    rw [List.map_cons, weighedElements, ih]
    rfl

@[simp] theorem statementOf_text_list (keyword : Text) (args : List Value) :
    statementOf (some (.text keyword)) (some (.list args)) = .ok (.statement keyword args) := rfl

@[simp] theorem blockOf_map_item (items : List Item) : blockOf (.list (items.map .item)) = .ok (.block items) := by
  rw [blockOf, ofSequence, weighedSequence, weighedElements_map_item]
  rfl

end Item

namespace Declaration

@[simp] theorem bodyOf_list_map_item (items : List Item) :
    bodyOf (.list (items.map .item)) = .ok (.sequence items) := by
  simp only [bodyOf, bodyOf.sequenceOf, Item.ofElements, Item.weighedElements_map_item]
  rfl

@[simp] theorem bodyOf_tuple_map_item (items : List Item) :
    bodyOf (.tuple (items.map .item)) = .ok (.sequence items) := by
  simp only [bodyOf, bodyOf.sequenceOf, Item.ofElements, Item.weighedElements_map_item]
  rfl

/-- A declaration is the body that is made of it. -/
@[simp] theorem bodyOf_toValue (d : Declaration) : bodyOf d.toValue = .ok d := by
  cases d with
  | single i => rfl
  | sequence items => exact bodyOf_list_map_item items

end Declaration

end FieldForest
