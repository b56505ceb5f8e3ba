import TypeSketch.Json.Write
import TypeSketch.Target.TypeHint

/-!
# Typed dictionaries

* `TypedDict.declare`: a class if all keys can be written as names, and otherwise a call with the
  keys as strings.
* `TypedDict.content`: a module, which imports `NotRequired` when a field may be missing.
-/

namespace TypeSketch.TypedDict

/-- The annotation of a field. -/
def hint (f : Field) : Text :=
  let type := TypeHint.spell f.type
  if f.optional then ("NotRequired[" : Text) ++ type ++ "]" else type

/-- Whether a record is written as a class. -/
def isClass (fields : List Field) : Bool := fields.all fun f => TypeHint.isPlainIdentifier f.key

/-- The line of a field in a class. -/
def classLine (f : Field) : Text := ("    " : Text) ++ f.key ++ ": " ++ hint f

/-- The line of a field in a call. -/
def callLine (f : Field) : Text :=
  ("    " : Text) ++ Json.quote f.key ++ ": " ++ hint f ++ ","

/-- The text of a declaration. -/
def declare (d : Declaration) : Text :=
  match d.body with
  | .alias t => TypeHint.declareAlias d.name t
  | .record fields =>
    if isClass fields then
      Text.join "\n" ((("class " : Text) ++ d.name ++ "(TypedDict):") :: fields.map classLine)
    else
      Text.join "\n"
        ((d.name ++ " = TypedDict(" ++ Json.quote d.name ++ ", \x7b") :: fields.map callLine ++
          [("\x7d)" : Text)])

/-- The import line of some declarations. -/
def imports (ds : List Declaration) : Text :=
  if ds.any fun d => d.fields.any (·.optional) then "from typing import NotRequired, TypedDict"
  else "from typing import TypedDict"

/-- The text of some declarations. -/
def content (ds : List Declaration) : Text := TypeHint.module (imports ds) (ds.map declare)

end TypeSketch.TypedDict
