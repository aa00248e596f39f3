/-
  FieldForest.Forest.Declared — the forests of declarations, made as values or read from text.

  A text is read before anything is said about the limit on nesting, and that before anything
  is built.
-/
import FieldForest.Declaration.Reading
import FieldForest.Forest.Build

namespace FieldForest

/-- Why there is no forest. -/
inductive ForestError where
  | unread (e : ReadError)
  | noLimit (e : Nesting.OutOfRange)
  | unbuilt (e : BuildError)

def ForestError.message : ForestError → Text
  | .unread e => e.message
  | .noLimit e => e.message
  | .unbuilt e => e.message

/-- The forest that a value declares, where statements may stand as deep as the caller says. -/
def Value.declaredForest (depth : Option Int) (v : Value) : Traced ForestError (List Field) := do
  let limit ← Traced.ofExcept ((Nesting.Limit.given depth).mapError .noLimit)
  (v.buildForest limit).mapError .unbuilt

/-- The forest that a text declares. -/
def Declaration.readForest (stack : Stack) (depth : Option Int) (source : Text) : Traced ForestError (List Field) := do
  let declaration ← (readTraced stack source).mapError .unread
  declaration.toValue.declaredForest depth

end FieldForest
