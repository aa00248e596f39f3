/-
  FieldForest.Forest.Loading — fields made from loose parts and read from saved text.

  A field has a string for its id and its type, a dictionary of options with string keys, and
  a list or tuple of fields below it; it is made if these are sound and its options hold the
  flag as a truth value and no declarations. A dictionary of the parts of a field stands for
  the field. A saved forest is a list of such dictionaries in JSON.
-/
import FieldForest.Declaration.Checked
import FieldForest.Json.Reader

namespace FieldForest

namespace Field

/-- Numbers from minus this bound up to it are steps as numbers. -/
def numberStepBound : Int := Nat.pow 2 63

/-- The step to the key of an option: a number for a number, else the key as it is shown. -/
def keyStep : Value → Step
  | .text t => .name t
  | .bool b => .index (if b then 1 else 0)
  | .int n => if -numberStepBound ≤ n ∧ n < numberStepBound then .index n else .name (Text.ofInt n)
  | v => .name v.display

def optionsOfEntries : List (Value × Value) → Checked (List (Text × Value))
  | [] => .ok []
  | (key, v) :: rest =>
    let key : Checked Text := match key with
      | .text t => .ok t
      | key => Checked.fault [.name "options", keyStep key, .name "[key]"] .notText
    (key.both (optionsOfEntries rest)).map fun (key, more) => (key, v) :: more

/-- The options; without any there are none. -/
def optionsOf : Option Value → Checked (List (Text × Value))
  | none => .ok []
  | some (.dict entries) => optionsOfEntries entries
  | some _ => Checked.fault [.name "options"] .notDict

/-- The field of sound parts, if its options keep the rules. -/
def assemble (id type : Text) (options : List (Text × Value)) (fields : List Field) : Checked Field :=
  match options.span (·.1 != flagKey) with
  | (leading, (_, .bool required) :: trailing) =>
    match (leading ++ trailing).find? (·.2.isDeclaration) with
    | none => .ok (.mk id type leading required trailing fields)
    | some (key, _) =>
      Checked.fault [] (.rule ("Option '" ++ key ++ "' of field '" ++ id ++ "' holds a nested declaration"))
  | _ => Checked.fault [] (.rule ("Field '" ++ id ++ "' must have a boolean 'required' option"))

/-- The field of loose parts; `none` is a part that is not given. -/
def ofParts (id type options : Option Value) (fields : Checked (List Field)) : Checked Field :=
  match (Checked.text "id" id).both ((Checked.text "type" type).both ((optionsOf options).both fields)) with
  | .ok (id, type, options, fields) => assemble id type options fields
  | .error faults => .error faults

/-- The fault of a value that is no list or tuple; of named parts, none is a field. -/
def noSequence (v : Value) : List Fault :=
  match v.parts? with
  | some parts => (List.range parts.length).map fun (i : Nat) => ⟨[.index i], .notInstance⟩
  | none => [⟨[], .notTuple⟩]

mutual

/-- A field, or a dictionary of the parts of one. -/
def ofValue : Value → Checked Field
  | .field f => .ok f
  | .dict entries =>
    ofParts (Value.entry? "id" entries) (Value.entry? "type" entries) (Value.entry? "options" entries)
      (ofFieldsEntry entries)
  | _ => Checked.fault [] .notInstance

/-- The fields in the entry `fields` of a dictionary; without it there are none. -/
def ofFieldsEntry : List (Value × Value) → Checked (List Field)
  | [] => .ok []
  | (.text k, v) :: rest =>
    if k = ("fields" : Text) then (ofSequence v).under (.name "fields") else ofFieldsEntry rest
  | _ :: rest => ofFieldsEntry rest

/-- The fields of a list or tuple. -/
def ofSequence : Value → Checked (List Field)
  | .list xs => ofElements 0 xs
  | .tuple xs => ofElements 0 xs
  | v => .error (noSequence v)

/-- Fields from elements, the first of them being number `index`. -/
def ofElements (index : Nat) : List Value → Checked (List Field)
  | [] => .ok []
  | x :: xs =>
    (((ofValue x).under (.index index)).both (ofElements (index + 1) xs)).map fun (f, fs) => f :: fs

end

/-- The list of fields below a field; not given, there are none. -/
def belowOf : Option Value → Checked (List Field)
  | none => .ok []
  | some v => (ofSequence v).under (.name "fields")

end Field

namespace Forest

/-- How much of a saved text is read. -/
def jsonLimits (nanMark : Nat) : Json.Limits := ⟨200, 4300, some 4300, nanMark⟩

/-- The forest that a document without repeated keys describes. -/
def ofDocument : Json → Checked (List Field)
  | .array elements => Field.ofElements 0 (Value.ofJson.ofElements elements)
  | _ => Checked.fault [] .notList

/-- The forest that a text saves, `nanMark` being the mark of what is no number in it. Neither the
    text nor the strings that are saved in it hold halves of surrogate pairs. -/
def loadMarked (nanMark : Nat) (source : Text) : Checked (List Field) :=
  if source.hasLoneSurrogate then Checked.fault [] .loneSurrogate
  else match Json.read (jsonLimits nanMark) source with
    | .ok document =>
      if document.hasLoneSurrogate then Checked.fault [] .invalidJson else ofDocument document.merged
    | .error _ => Checked.fault [] .invalidJson

/-- The forest that a text saves. -/
def load (source : Text) : Checked (List Field) := loadMarked 0 source

end Forest

end FieldForest
