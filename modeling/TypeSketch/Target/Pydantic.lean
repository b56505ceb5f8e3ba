import TypeSketch.Json.Write
import TypeSketch.Target.TypeHint

/-!
# Pydantic models

* `Pydantic.declare`: a model with one attribute per key; a key that is not its attribute name is
  given as an alias.
-/

namespace TypeSketch.Pydantic

/-- The helpers that class bodies refer to. -/
def helperNames : List Text := ["BaseModel", "Field"]

/-- The rules for the attribute names of a declaration. Names that begin with an underscore are
private, and those that begin with `model_` belong to the model itself. -/
def rules (d : Declaration) : AttributeRules :=
  { leadingUnderscore := false
    reserved := TypeHint.reservedNames ++ helperNames ++ d.issued
    reservedStarts := ["model_"] }

/-- The alias of a key under an attribute name, if it needs one. -/
def alias? (name key : Text) : Option Text :=
  if name = key then none else some (("alias=" : Text) ++ Json.quote key)

/-- The annotation and the default of a field. -/
def fieldBody (f : Field) (altName : Option Text) : Text :=
  if !f.optional then
    match altName with
    | some a => TypeHint.spell f.type ++ " = Field(" ++ a ++ ")"
    | none => TypeHint.spell f.type
  else if f.kind = .array then
    TypeHint.spell f.type ++ " = Field(" ++
      Text.join ", " (("default_factory=list" : Text) :: altName.toList) ++ ")"
  else
    TypeHint.spell f.type.withNull ++
      match altName with
      | some a => (" = Field(default=None, " : Text) ++ a ++ ")"
      | none => " = None"

/-- The line of an attribute. -/
def attributeLine (name : Text) (f : Field) : Text :=
  ("    " : Text) ++ name ++ ": " ++ fieldBody f (alias? name f.key)

/-- The text of a declaration. -/
def declare (d : Declaration) : Text :=
  match d.body with
  | .alias t => TypeHint.declareAlias d.name t
  | .record fields =>
    Text.join "\n"
      ((("class " : Text) ++ d.name ++ "(BaseModel):") ::
        ((rules d).attributes fields).map fun a => attributeLine a.1 a.2)

/-- The text of some declarations. -/
def content (ds : List Declaration) : Text :=
  TypeHint.module "from pydantic import BaseModel, Field" (ds.map declare)

end TypeSketch.Pydantic
