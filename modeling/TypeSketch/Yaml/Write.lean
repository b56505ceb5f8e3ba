import TypeSketch.Json.Write
import TypeSketch.Yaml.Scalar

/-!
# Writing YAML

* `Yaml.document`: a value in block style, two blanks deeper for each level. The elements of an
  array in an object stand below its name, no deeper than that.
-/

namespace TypeSketch.Yaml

/-- A value without parts, in one line or folded. -/
def leaf (fold : Option Nat) (column : Nat) : Value → Text
  | .string t => scalar fold column t
  | .array _ => "[]"
  | .object _ => "\x7b\x7d"
  | v => Json.leaf (fun c => [c]) v

/-- The name of a member with the colon behind it. A name that is no simple key has a line of its
own. -/
def keyText (indent : Nat) (name : Text) : Text :=
  if isSimpleKey name then scalar none indent name ++ ":"
  else ("? " : Text) ++ scalar (some (indent + 2)) (indent + 2) name ++ newline indent ++ ":"

/-- The column behind the colon of a member. -/
def keyEnd (indent : Nat) (name : Text) : Nat :=
  if isSimpleKey name then indent + (keyText indent name).length else indent + 1

mutual

/-- A value behind a mark that ends at a column. The parts of a value begin on the line of the mark
or below it. -/
def behind (onLine : Bool) (indent column : Nat) : Value → Text
  | .array [] => " []"
  | .array elements =>
    if onLine then ' ' :: elementLines (indent + 2) elements
    else newline indent ++ elementLines indent elements
  | .object [] => " \x7b\x7d"
  | .object members =>
    (if onLine then (" " : Text) else newline (indent + 2)) ++ memberLines (indent + 2) members
  | v => ' ' :: leaf (some (indent + 2)) (column + 1) v

/-- The elements of an array. -/
def elementLines (indent : Nat) : List Value → Text
  | [] => []
  | [v] => '-' :: behind true indent (indent + 1) v
  | v :: w :: rest =>
    ("-" : Text) ++ behind true indent (indent + 1) v ++ newline indent ++
      elementLines indent (w :: rest)

/-- The members of an object. -/
def memberLines (indent : Nat) : List (Text × Value) → Text
  | [] => []
  | [(name, v)] => keyText indent name ++ behind (!isSimpleKey name) indent (keyEnd indent name) v
  | (name, v) :: m :: rest =>
    keyText indent name ++ behind (!isSimpleKey name) indent (keyEnd indent name) v ++
      newline indent ++ memberLines indent (m :: rest)

end

/-- A value as a document. -/
def document (v : Value) : Text :=
  (match v with
  | .array (e :: rest) => elementLines 0 (e :: rest)
  | .object (m :: rest) => memberLines 0 (m :: rest)
  | v => leaf (some 2) 0 v) ++ "\n"

end TypeSketch.Yaml
