import TypeSketch.Json.Scalar
import TypeSketch.Target.TypeScript

/-!
# Modules of structural types

What a module of interfaces and type aliases says, read from its text alone.

* `Ty`, `Definition`, `Module`: types by their structure, and what names are defined as.
* `Member`: **which values a type has.** An interface has the objects with just its properties, of
  which those marked by `?` may be missing.
* `Token`, `tokens`: the words, string literals and signs of a text.
* `readType`: a type, in which `[]` binds closer than `|` and parentheses group.
* `Module.read`: the module that a text defines.
-/

namespace TypeSketch.Interface

open TypeScript (startsName continuesName)

/-! ## Types and their values -/

/-- A type by its structure. -/
inductive Ty where
  | null
  | string
  | number
  | boolean
  | unknown
  /-- Objects with any properties. -/
  | anyRecord
  | ref (name : Text)
  | array (element : Ty)
  | union (left right : Ty)
deriving DecidableEq

/-- A property of an interface. -/
structure Property where
  key : Text
  /-- Whether the property may be missing. -/
  optional : Bool
  type : Ty
deriving DecidableEq

/-- What a name is defined as. -/
inductive Definition where
  | alias (type : Ty)
  | interface (properties : List Property)
deriving DecidableEq

/-- Named definitions. -/
abbrev Module := List (Text × Definition)

/-- **Which values a type has in a module.** -/
inductive Member (m : Module) : Ty → Value → Prop
  | null : Member m .null .null
  | string (t : Text) : Member m .string (.string t)
  | number (n : Numeral) : Member m .number (.number n)
  | boolean (b : Bool) : Member m .boolean (.bool b)
  | unknown (v : Value) : Member m .unknown v
  | anyRecord (members : List (Text × Value)) : Member m .anyRecord (.object members)
  | array {t : Ty} {elements : List Value} (h : ∀ v ∈ elements, Member m t v) :
    Member m (.array t) (.array elements)
  | left {t u : Ty} {v : Value} (h : Member m t v) : Member m (.union t u) v
  | right {t u : Ty} {v : Value} (h : Member m u v) : Member m (.union t u) v
  | alias {name : Text} {t : Ty} {v : Value} (hd : (name, .alias t) ∈ m) (h : Member m t v) :
    Member m (.ref name) v
  | interface {name : Text} {properties : List Property} {members : List (Text × Value)}
    (hd : (name, .interface properties) ∈ m)
    (known : ∀ e ∈ members, ∃ p ∈ properties, p.key = e.1)
    (present : ∀ p ∈ properties, p.optional = false → p.key ∈ Entries.names members)
    (typed : ∀ p ∈ properties, ∀ v, Entries.get? members p.key = some v → Member m p.type v) :
    Member m (.ref name) (.object members)

/-! ## Tokens -/

/-- The signs of a module. -/
inductive Mark where
  | parenOpen
  | parenClose
  | bracketOpen
  | bracketClose
  | braceOpen
  | braceClose
  | angleOpen
  | angleClose
  | bar
  | comma
  | colon
  | semicolon
  | question
  | equals
deriving DecidableEq

/-- How the signs are written. -/
def Mark.all : List (Char × Mark) :=
  [('(', parenOpen), (')', parenClose), ('[', bracketOpen), (']', bracketClose),
    ('\x7b', braceOpen), ('\x7d', braceClose), ('<', angleOpen), ('>', angleClose), ('|', bar),
    (',', comma), (':', colon), (';', semicolon), ('?', question), ('=', equals)]

/-- The sign that a code point is. -/
def Mark.ofCodePoint? (c : CodePoint) : Option Mark :=
  (Mark.all.find? fun m => CodePoint.ofChar m.1 = c).map (·.2)

/-- The tokens of a module. -/
inductive Token where
  | word (t : Text)
  | literal (t : Text)
  | mark (m : Mark)
deriving DecidableEq

/-- The tokens of a text. Blanks and line feeds only keep words apart. -/
def tokens (t : Text) : Option (List Token) :=
  match t with
  | [] => some []
  | c :: rest =>
    if c = ' ' || c = '\n' then tokens rest
    else if startsName c then
      (tokens (rest.dropWhile continuesName)).map
        (.word (c :: rest.takeWhile continuesName) :: ·)
    else if c = '"' then
      match _h : Json.lenientString (c :: rest) [] rest with
      | .ok (s, after) => (tokens after).map (.literal s :: ·)
      | .error _ => none
    else
      match Mark.ofCodePoint? c with
      | some m => (tokens rest).map (.mark m :: ·)
      | none => none
termination_by t.length
decreasing_by
  · exact Nat.lt_succ_self _
  · exact Nat.lt_succ_of_le (List.dropWhile_suffix _).length_le
  · exact Nat.lt_succ_of_lt (Json.lenientString_length _h)
  · exact Nat.lt_succ_self _

/-! ## Types -/

/-- The type that a word denotes. -/
def Ty.ofWord (w : Text) : Ty :=
  if w = "null" then .null
  else if w = "string" then .string
  else if w = "number" then .number
  else if w = "boolean" then .boolean
  else if w = "unknown" then .unknown
  else .ref w

/-- The union of what stands in front of a bar, if anything does, and a type. -/
def Ty.join : Option Ty → Ty → Ty
  | none, t => t
  | some left, t => .union left t

/-- A type, given the unions that open parentheses interrupt, what stands in front of the last bar,
and the operand behind it, if it is there yet. A pair of brackets takes the operand, a bar all that
stands in front of it. -/
def readType : List (Option Ty) → Option Ty → Option Ty → List Token → Option Ty
  | outer, left, none, .word w :: .mark .angleOpen :: .word k :: .mark .comma :: .word v ::
      .mark .angleClose :: rest =>
    if w = "Record" ∧ k = "string" ∧ v = "unknown" then readType outer left (some .anyRecord) rest
    else none
  | outer, left, none, .word w :: rest => readType outer left (some (.ofWord w)) rest
  | outer, left, none, .mark .parenOpen :: rest => readType (left :: outer) none none rest
  | outer, left, some t, .mark .bracketOpen :: .mark .bracketClose :: rest =>
    readType outer left (some (.array t)) rest
  | outer, left, some t, .mark .bar :: rest => readType outer (some (.join left t)) none rest
  | before :: outer, left, some t, .mark .parenClose :: rest =>
    readType outer before (some (.join left t)) rest
  | [], left, some t, [] => some (.join left t)
  | _, _, _, _ => none

/-! ## Declarations -/

/-- A property, from its key to the end of its type. -/
def readProperty : List Token → Option Property
  | .word key :: .mark .question :: .mark .colon :: type
  | .literal key :: .mark .question :: .mark .colon :: type =>
    (readType [] none none type).map (⟨key, true, ·⟩)
  | .word key :: .mark .colon :: type | .literal key :: .mark .colon :: type =>
    (readType [] none none type).map (⟨key, false, ·⟩)
  | _ => none

/-- Properties with a semicolon behind each, given the tokens of the first one that were passed. -/
def readProperties : List Token → List Token → Option (List Property)
  | [], [] => some []
  | passed, .mark .semicolon :: rest => do
    let p ← readProperty passed
    let ps ← readProperties [] rest
    pure (p :: ps)
  | passed, token :: rest => readProperties (passed ++ [token]) rest
  | _ :: _, [] => none

/-- A definition without the sign that ends it. -/
def readDefinition : List Token → Option (Text × Definition)
  | .word w :: .word name :: .mark .braceOpen :: body =>
    if w = "interface" then (readProperties [] body).map ((name, .interface ·)) else none
  | .word w :: .word name :: .mark .equals :: body =>
    if w = "type" then (readType [] none none body).map ((name, .alias ·)) else none
  | _ => none

/-- Definitions in a row, given whether a brace is open and the tokens of the first one that were
passed. A definition ends with its brace, or else with a semicolon. -/
def readDefinitions : Bool → List Token → List Token → Option Module
  | _, [], [] => some []
  | true, passed, .mark .braceClose :: rest => do
    let d ← readDefinition passed
    let ds ← readDefinitions false [] rest
    pure (d :: ds)
  | false, passed, .mark .semicolon :: rest => do
    let d ← readDefinition passed
    let ds ← readDefinitions false [] rest
    pure (d :: ds)
  | inside, passed, token :: rest =>
    readDefinitions (inside || token = .mark .braceOpen) (passed ++ [token]) rest
  | _, _ :: _, [] => none

/-- The module that a text defines. -/
def Module.read (t : Text) : Option Module := (tokens t).bind (readDefinitions false [])

end TypeSketch.Interface
