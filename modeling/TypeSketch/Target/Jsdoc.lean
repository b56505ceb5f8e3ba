import TypeSketch.Target.TypeScript

/-!
# JSDoc typedefs

* `Jsdoc.spell`: the text of a type.
* `Jsdoc.declare`: a comment that declares a typedef with its properties.
-/

namespace TypeSketch.Jsdoc

/-- The text of a type. -/
def spell : TypeExpr → Text
  | .null => "null"
  | .text => "string"
  | .number => "number"
  | .boolean => "boolean"
  | .anyObject => "Object"
  | .anyList => "Array<*>"
  | .list t => ("Array<" : Text) ++ spell t ++ ">"
  | .named name => name
  | .orNull t => ("(" : Text) ++ spell t ++ "|null)"

/-- The name of a field: one that may be missing stands in brackets. -/
def fieldName (f : Field) : Text :=
  let key := TypeScript.propertyKey f.key
  if f.optional then ("[" : Text) ++ key ++ "]" else key

/-- The line of a field. -/
def fieldLine (f : Field) : Text :=
  (" * @property \x7b" : Text) ++ spell f.type ++ "\x7d " ++ fieldName f

/-- The text of a declaration. -/
def declare (d : Declaration) : Text :=
  match d.body with
  | .alias t => ("/**\n * @typedef \x7b" : Text) ++ spell t ++ "\x7d " ++ d.name ++ "\n */"
  | .record fields =>
    Text.join "\n"
      (("/**" : Text) :: ((" * @typedef \x7bObject\x7d " : Text) ++ d.name) ::
        fields.map fieldLine ++ [(" */" : Text)])

/-- The text of some declarations, with an empty line between them. -/
def content (ds : List Declaration) : Text := Text.join "\n\n" (ds.map declare) ++ "\n"

end TypeSketch.Jsdoc
