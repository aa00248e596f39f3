/-
  FieldForest.Forest.RequiredPaths — the fields that are always present.

  A field is always present if it is required and so is every field above it. Its path is the
  ids from the root down to it with points between.
-/
import FieldForest.Value.Basic

namespace FieldForest.Forest

mutual

/-- The paths of a field and of the fields below it, each with `front` in front. -/
def fieldRequiredPaths (front : Text) : Field → List Text
  | .mk id _ _ required _ fields =>
    if required then (front ++ id) :: requiredPaths (front ++ id ++ ".") fields else []

/-- The paths of the fields that are always present, in order, each with `front` in front. -/
def requiredPaths (front : Text) : List Field → List Text
  | [] => []
  | f :: fs => fieldRequiredPaths front f ++ requiredPaths front fs

end

end FieldForest.Forest
