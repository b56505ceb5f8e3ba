import TypeSketch.Declaration
import TypeSketch.Json.Write

/-!
# TypeScript interfaces

* `TypeScript.spell`: the text of a type. An element type that is a union stands in parentheses.
* `TypeScript.propertyKey`: a property name, quoted unless it is spelled like an identifier.
* `TypeScript.declare`: an interface or a type alias.
-/

namespace TypeSketch.TypeScript

/-- A letter, `_` or `$`. -/
def startsName (c : CodePoint) : Bool := c.isLower || c.isUpper || c = '_' || c = '$'

/-- A letter, a digit, `_` or `$`. -/
def continuesName (c : CodePoint) : Bool := startsName c || c.isDigit

/-- Whether a text consists of a letter, `_` or `$` and then of those or digits. -/
def isPlainName : Text → Bool
  | [] => false
  | c :: rest => startsName c && rest.all continuesName

/-- Whether a property name is written without quotes: it is plain, or plain up to one line feed at
its end. -/
def isBareKey (key : Text) : Bool :=
  isPlainName key || (key.getLast? = some '\n' && isPlainName key.dropLast)

/-- A property name, quoted unless it is bare. -/
def propertyKey (key : Text) : Text := if isBareKey key then key else Json.quote key

/-- The text of a type. -/
def spell : TypeExpr → Text
  | .null => "null"
  | .text => "string"
  | .number => "number"
  | .boolean => "boolean"
  | .anyObject => "Record<string, unknown>"
  | .anyList => "unknown[]"
  | .list t =>
    let element := spell t
    if element.contains " | " then ("(" : Text) ++ element ++ ")[]" else element ++ "[]"
  | .named name => name
  | .orNull t => spell t ++ " | null"

/-- The line of a field in an interface. -/
def fieldLine (f : Field) : Text :=
  ("  " : Text) ++ propertyKey f.key ++ (if f.optional then "?: " else ": ") ++ spell f.type ++ ";"

/-- The text of a declaration. -/
def declare (d : Declaration) : Text :=
  match d.body with
  | .alias t => ("type " : Text) ++ d.name ++ " = " ++ spell t ++ ";"
  | .record fields =>
    Text.join "\n"
      ((("interface " : Text) ++ d.name ++ " \x7b") :: fields.map fieldLine ++ [("\x7d" : Text)])

/-- The text of some declarations, with an empty line between them. -/
def content (ds : List Declaration) : Text := Text.join "\n\n" (ds.map declare) ++ "\n"

end TypeSketch.TypeScript
