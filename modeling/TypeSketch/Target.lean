import TypeSketch.Target.Dataclass
import TypeSketch.Target.Jsdoc
import TypeSketch.Target.Pydantic
import TypeSketch.Target.TypedDict
import TypeSketch.Target.TypeScript
import TypeSketch.Value

/-!
# Output formats

* `Target`: the formats in which declarations are written.
* `Target.ofName?`: the format of a name.
* `Target.content`: the declarations in a format.
-/

namespace TypeSketch

/-- An output format. -/
inductive Target where
  | typeScript
  | jsdoc
  | typedDict
  | dataclass
  | pydantic
deriving DecidableEq

namespace Target

/-- All formats, in the order in which they are listed. -/
def all : List Target := [typeScript, jsdoc, typedDict, dataclass, pydantic]

/-- The name by which a format is asked for. -/
def name : Target → Text
  | typeScript => "typescript"
  | jsdoc => "jsdoc"
  | typedDict => "python-typeddict"
  | dataclass => "python-dataclass"
  | pydantic => "pydantic-v2"

/-- The format of a name. -/
def ofName? (name : Text) : Option Target := all.find? fun t => t.name = name

theorem ofName?_name (t : Target) : ofName? t.name = some t := by cases t <;> decide

/-- The modules that the written declarations import. -/
def dependencies : Target → List Text
  | typeScript => []
  | jsdoc => []
  | typedDict => ["typing"]
  | dataclass => ["dataclasses"]
  | pydantic => ["pydantic"]

/-- The declarations in a format. -/
def content : Target → List Declaration → Text
  | typeScript => TypeScript.content
  | jsdoc => Jsdoc.content
  | typedDict => TypedDict.content
  | dataclass => Dataclass.content
  | pydantic => Pydantic.content

end Target

end TypeSketch
