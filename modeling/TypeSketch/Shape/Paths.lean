import TypeSketch.Shape

/-!
# Paths below a shape

* `Shape.paths`: every property and element shape below a shape with its dotted path, each in front
  of what lies below it.
-/

namespace TypeSketch.Shape

/-- A place below a shape. -/
structure Row where
  path : Text
  shape : Shape
  required : Bool

/-- The path of a property. -/
def propertyPath (above name : Text) : Text := if above.isEmpty then name else above ++ "." ++ name

/-- The path of the elements of an array. -/
def itemsPath (above : Text) : Text := above ++ "[]"

mutual

/-- The rows below a shape at a path. Elements of an array are always required. -/
def paths (above : Text) : Shape → List Row
  | ⟨kind, properties, required, items, _⟩ =>
    match kind with
    | .object => pathsOfProperties above (required.getD []) properties
    | .array => pathsOfItems above items
    | _ => []

/-- The rows of the properties. -/
def pathsOfProperties (above : Text) (required : List Label) :
    Option (List (Text × Shape)) → List Row
  | none => []
  | some fields => pathsOfFields above required fields

/-- The rows of the elements. -/
def pathsOfItems (above : Text) : Option Shape → List Row
  | none => []
  | some s => ⟨itemsPath above, s, true⟩ :: paths (itemsPath above) s

/-- The rows of some properties and what lies below them. -/
def pathsOfFields (above : Text) (required : List Label) : List (Text × Shape) → List Row
  | [] => []
  | (name, s) :: rest =>
    ⟨propertyPath above name, s, required.contains (.name name)⟩ ::
      (paths (propertyPath above name) s ++ pathsOfFields above required rest)

end

end TypeSketch.Shape
