/-
  FieldForest.Value.Elements — what values yield when they are gone through.

  Lists and tuples yield their elements, strings their code points, dictionaries their keys.
  A statement, a block, a body and a field yield their parts, each as a pair of its name and
  its value. Nothing else yields anything.
-/
import FieldForest.Value.Basic

namespace FieldForest.Value

def namedPair (name : Text) (value : Value) : Value := .tuple [.text name, value]

/-- The named parts of a statement, block, body or field. -/
def parts? : Value → Option (List Value)
  | .item (.statement keyword args) =>
    some [namedPair "keyword" (.text keyword), namedPair "args" (.list args)]
  | .item (.block items) => some [namedPair "statements" (.list (items.map .item))]
  | .nested (.single i) => some [namedPair "body" (.item i)]
  | .nested (.sequence items) => some [namedPair "body" (.list (items.map .item))]
  | .field f =>
    some [namedPair "id" (.text f.id), namedPair "type" (.text f.type),
      namedPair "options" (.fixed (f.options.map fun (k, v) => (.text k, v))),
      namedPair "fields" (.tuple (f.fields.map .field))]
  | _ => .none

/-- What stands for a sequence where one is wanted: elements or named parts. -/
def sequence? : Value → Option (List Value)
  | .list xs => some xs
  | .tuple xs => some xs
  | v => v.parts?

/-- All that a value yields, in order. -/
def elements? : Value → Option (List Value)
  | .text t => some (t.map fun c => .text [c])
  | .dict entries => some (entries.map (·.1))
  | .fixed entries => some (entries.map (·.1))
  | v => v.sequence?

end FieldForest.Value
