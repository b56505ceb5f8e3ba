import TypeSketch.Target.TypeHint

/-!
# Data classes

* `Dataclass.declare`: a class with one attribute per key, those with defaults behind the others.
* `Dataclass.content`: a module, which imports `field` when an attribute defaults to a new list.
-/

namespace TypeSketch.Dataclass

/-- The helpers that class bodies refer to. -/
def helperNames : List Text := ["dataclass", "field"]

/-- The rules for the attribute names of a declaration. -/
def rules (d : Declaration) : AttributeRules :=
  { reserved := TypeHint.reservedNames ++ helperNames ++ d.issued }

/-- Whether a field defaults to a new list. -/
def defaultsToList (f : Field) : Bool := f.optional && f.kind = .array

/-- The line of an attribute. -/
def attributeLine (name : Text) (f : Field) : Text :=
  ("    " : Text) ++ name ++ ": " ++
    (if !f.optional then TypeHint.spell f.type
    else if f.kind = .array then TypeHint.spell f.type ++ " = field(default_factory=list)"
    else TypeHint.spell f.type.withNull ++ " = None")

/-- The lines of a record: the attributes without defaults, then those with one. -/
def attributeLines (d : Declaration) : List Text :=
  let attributes := (rules d).attributes d.fields
  let (optional, needed) := attributes.partition (·.2.optional)
  (needed ++ optional).map fun a => attributeLine a.1 a.2

/-- The text of a declaration. -/
def declare (d : Declaration) : Text :=
  match d.body with
  | .alias t => TypeHint.declareAlias d.name t
  | .record _ =>
    Text.join "\n"
      (("@dataclass" : Text) :: (("class " : Text) ++ d.name ++ ":") :: attributeLines d)

/-- The import line of some declarations. -/
def imports (ds : List Declaration) : Text :=
  if ds.any fun d => d.fields.any defaultsToList then "from dataclasses import dataclass, field"
  else "from dataclasses import dataclass"

/-- The text of some declarations. -/
def content (ds : List Declaration) : Text := TypeHint.module (imports ds) (ds.map declare)

end TypeSketch.Dataclass
