import TypeSketch.Number.Shortest
import TypeSketch.Text.Quoted
import TypeSketch.Value

/-!
# Showing a value in a message

* `Value.display`: a value as a message names it, with quoted texts and the words `None`, `True`
  and `False`.
-/

namespace TypeSketch

/-- The numeral of a number as a message shows it. -/
def Numeral.display : Numeral → Text
  | .int n => Text.decimalInt n
  | .double d => d.decimalText

namespace Value

mutual

/-- A value as a message shows it. -/
def display : Value → Text
  | .null => "None"
  | .bool true => "True"
  | .bool false => "False"
  | .number n => n.display
  | .string t => t.quoted
  | .array elements => ("[" : Text) ++ displayElements elements ++ "]"
  | .object members => ("\x7b" : Text) ++ displayMembers members ++ "\x7d"
  | .foreign typeName => ("<" : Text) ++ typeName ++ ">"

/-- The elements of an array as a message shows them. -/
def displayElements : List Value → Text
  | [] => []
  | [v] => display v
  | v :: w :: rest => display v ++ ", " ++ displayElements (w :: rest)

/-- The members of an object as a message shows them. -/
def displayMembers : List (Text × Value) → Text
  | [] => []
  | [(name, v)] => name.quoted ++ ": " ++ display v
  | (name, v) :: m :: rest => name.quoted ++ ": " ++ display v ++ ", " ++ displayMembers (m :: rest)

end

end Value

end TypeSketch
