/-
  FieldForest.Forest.Build — the fields that a declaration means.

  Blocks are unwrapped in place, so a declaration is a sequence of statements, and each
  becomes one field. The keyword alone decides whether the field is required. Names differ
  among the fields of one level, and a composite field has fields. A build reports each field
  once it is complete, the fields of a body before the field they belong to.
-/
import FieldForest.Declaration.Calls
import FieldForest.Value.Equality
import FieldForest.Nesting
import FieldForest.Trace

namespace FieldForest

/-- Why a declaration means no fields; each cause keeps what it is about. -/
inductive BuildError where
  | notItem (v : Value)
  | notDeclaration (v : Value)
  | notStatement (v : Value)
  | tooDeep (limit : Nat) (statement : Item)
  | unknownKeyword (keyword : Text) (statement : Item)
  | noForm (statement : Item)
  | badName (statement : Item)
  | badType (statement : Item)
  | emptyBody (statement : Item)
  | badOptionName (key : Value) (statement : Item)
  | declarationInOption (key : Text) (statement : Item)
  | duplicate (id : Text) (statement : Item)

def BuildError.message : BuildError → Text
  | .notItem v => Text.about "Expected a statement or block" v
  | .notDeclaration v => Text.about "Expected a statement, block or sequence" v
  | .notStatement v => Text.about "Expected a statement" v
  | .tooDeep limit s => Text.about (Nesting.exceededMessage limit) (.item s)
  | .unknownKeyword keyword s => Text.about ("Unrecognized keyword '" ++ keyword ++ "'") (.item s)
  | .noForm s => Text.about "Arguments match no field form" (.item s)
  | .badName s => Text.about "Field name must be a non-empty string" (.item s)
  | .badType s => Text.about "Type tag must be a non-empty string" (.item s)
  | .emptyBody s => Text.about "Nested block declares no fields" (.item s)
  | .badOptionName key s => Text.about ("Option names must be strings, got " ++ key.display) (.item s)
  | .declarationInOption key s => Text.about ("Option '" ++ key ++ "' holds a nested declaration") (.item s)
  | .duplicate id s => Text.about ("Duplicate field '" ++ id ++ "'") (.item s)

/-- The forms of a statement's arguments: a name and a type, alone or with options or a body. -/
inductive Form where
  | bare
  | options
  | composite

def Form.ofArgs? : List Value → Option Form
  | [_, _] => some .bare
  | [_, _, .dict _] => some .options
  | [_, _, .fixed _] => some .options
  | [_, _, .nested _] => some .composite
  | _ => none

namespace Item

/-- A text that is not empty. -/
def label? : Value → Option Text
  | .text [] => none
  | .text t => some t
  | _ => none

/-- The name and the type of a field. -/
def labels (statement : Item) (name type : Value) : Except BuildError (Text × Text) :=
  match label? name, label? type with
  | none, _ => .error (.badName statement)
  | some _, none => .error (.badType statement)
  | some id, some type => .ok (id, type)

/-- The options of field `id` without the flag, which the keyword sets. -/
def settings (statement : Item) (id : Text) (required : Bool) :
    List (Value × Value) → Traced BuildError (List (Text × Value))
  | [] => pure []
  | (.text key, value) :: rest =>
    if value.isDeclaration then Traced.fail (.declarationInOption key statement)
    else if key = Field.flagKey then do
      if !value.equals (.bool required) then Traced.report (.overriding value id required)
      settings statement id required rest
    else do
      let more ← settings statement id required rest
      return (key, value) :: more
  | (key, _) :: _ => Traced.fail (.badOptionName key statement)

/-- The keyword of a statement, at a depth that is allowed. -/
def keywordAt (limit : Nesting.Limit) (depth : Nat) (keyword : Text) (statement : Item) :
    Except BuildError Keyword :=
  if limit.depth < depth then .error (.tooDeep limit.depth statement)
  else match Keyword.ofText? keyword with
    | some k => .ok k
    | none => .error (.unknownKeyword keyword statement)

/-- The field reported as complete. -/
def complete (depth : Nat) (f : Field) : Traced BuildError Field := do
  Traced.report (.built f depth)
  return f

/-- The field of a statement with options. -/
def withOptions (limit : Nesting.Limit) (depth : Nat) (keyword : Text) (statement : Item) (name type : Value)
    (entries : List (Value × Value)) : Traced BuildError Field := do
  let keyword ← Traced.ofExcept (keywordAt limit depth keyword statement)
  let (id, type) ← Traced.ofExcept (labels statement name type)
  let options ← settings statement id (keyword = .requires) entries
  complete depth (.mk id type options (keyword = .requires) [] [])

mutual

/-- The field that the statement of this keyword and these arguments means. -/
def fieldOf (limit : Nesting.Limit) (depth : Nat) (keyword : Text) (args : List Value) :
    Traced BuildError Field :=
  let statement := Item.statement keyword args
  match args with
  | [name, type] => do
    let keyword ← Traced.ofExcept (keywordAt limit depth keyword statement)
    let (id, type) ← Traced.ofExcept (labels statement name type)
    complete depth (.mk id type [] (keyword = .requires) [] [])
  | [name, type, .dict entries] => withOptions limit depth keyword statement name type entries
  | [name, type, .fixed entries] => withOptions limit depth keyword statement name type entries
  | [name, type, .nested body] => do
    let keyword ← Traced.ofExcept (keywordAt limit depth keyword statement)
    let (id, type) ← Traced.ofExcept (labels statement name type)
    let fields ← bodyFields limit (depth + 1) body
    if fields.isEmpty then Traced.fail (.emptyBody statement)
    else complete depth (.mk id type [] (keyword = .requires) [] fields)
  | _ => do
    let _ ← Traced.ofExcept (keywordAt limit depth keyword statement)
    Traced.fail (.noForm statement)

/-- The fields of an item at a level where the names `seen` are taken. -/
def build (limit : Nesting.Limit) (depth : Nat) (seen : List Text) : Item → Traced BuildError (List Field)
  | .statement keyword args => do
    let f ← fieldOf limit depth keyword args
    if f.id ∈ seen then Traced.fail (.duplicate f.id (.statement keyword args))
    else return [f]
  | .block items => buildAll limit depth seen items

/-- The fields of items one after the other, at a level where the names `seen` are taken. -/
def buildAll (limit : Nesting.Limit) (depth : Nat) (seen : List Text) :
    List Item → Traced BuildError (List Field)
  | [] => return []
  | i :: is => do
    let fields ← build limit depth seen i
    let more ← buildAll limit depth (fields.map Field.id ++ seen) is
    return fields ++ more

/-- The fields of a body, on a level of their own. -/
def bodyFields (limit : Nesting.Limit) (depth : Nat) : Declaration → Traced BuildError (List Field)
  | .single i => build limit depth [] i
  | .sequence is => buildAll limit depth [] is

end

/-- The fields of values one after the other, each of which has to be an item. -/
def buildValues (limit : Nesting.Limit) (seen : List Text) : List Value → Traced BuildError (List Field)
  | [] => return []
  | .item i :: rest => do
    let fields ← build limit 1 seen i
    let more ← buildValues limit (fields.map Field.id ++ seen) rest
    return fields ++ more
  | v :: _ => Traced.fail (.notItem v)

end Item

namespace Value

/-- The top-level fields of a value that is a declaration. -/
def topFields (limit : Nesting.Limit) : Value → Traced BuildError (List Field)
  | .item i => i.build limit 1 []
  | .list xs => Item.buildValues limit [] xs
  | .tuple xs => Item.buildValues limit [] xs
  | v => Traced.fail (.notDeclaration v)

/-- The forest that a value declares. -/
def buildForest (limit : Nesting.Limit) (v : Value) : Traced BuildError (List Field) := do
  let forest ← v.topFields limit
  Traced.report (.forestBuilt forest.length)
  return forest

/-- The field that a value means which is a statement. -/
def buildField (limit : Nesting.Limit) : Value → Traced BuildError Field
  | .item (.statement keyword args) => Item.fieldOf limit 1 keyword args
  | v => Traced.fail (.notStatement v)

end Value

end FieldForest
