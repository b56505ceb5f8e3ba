import TypeSketch.Namer
import TypeSketch.Shape

/-!
# Declarations

A shape is declared by a list of named types. Every object with properties below the root gets a
declaration of its own. A name is handed out before the names of what lies below it, and a
declaration follows those that it uses, so the root comes last. How a declaration is spelled is
up to a target.

* `TypeExpr`: the type of a field, independent of any target.
* `Declaration`: a named type, either a record of fields or another name for a type.
* `Shape.declarations`: the declarations of a shape.
-/

namespace TypeSketch

/-- The type of a value. -/
inductive TypeExpr where
  | null
  | text
  | number
  | boolean
  /-- An object of which no property is known. -/
  | anyObject
  /-- An array whose elements are unknown. -/
  | anyList
  | list (element : TypeExpr)
  /-- A declared type. -/
  | named (name : Text)
  /-- A type or null. -/
  | orNull (base : TypeExpr)
deriving DecidableEq

namespace TypeExpr

/-- The type or null, if null was seen. -/
def withNullable (nullable : Bool) (t : TypeExpr) : TypeExpr := if nullable then orNull t else t

/-- The type or null, once. -/
def withNull : TypeExpr → TypeExpr
  | orNull t => orNull t
  | t => orNull t

/-- The type of a leaf of a kind. -/
def ofKind : Kind → TypeExpr
  | .string => text
  | .number => number
  | .boolean => boolean
  | .null => null
  | .array => anyList
  | .object => anyObject

end TypeExpr

/-- A field of a record. -/
structure Field where
  /-- The name of the property. -/
  key : Text
  /-- The kind of its shape. -/
  kind : Kind
  type : TypeExpr
  /-- Whether the property may be missing. -/
  optional : Bool
deriving DecidableEq

/-- What a name is declared as. -/
inductive Body where
  | alias (type : TypeExpr)
  | record (fields : List Field)
deriving DecidableEq

/-- A named type. -/
structure Declaration where
  name : Text
  body : Body
  /-- The nested names that were handed out by the time it was complete. -/
  issued : List Text
deriving DecidableEq

namespace Declaration

/-- The fields of a declaration; another name for a type has none. -/
def fields (d : Declaration) : List Field :=
  match d.body with
  | .alias _ => []
  | .record fields => fields

end Declaration

/-- Declarations under way: the namer, and the declarations so far, latest first. -/
structure Draft where
  namer : Namer
  done : List Declaration := []

namespace Draft

/-- The draft with one more declaration. -/
def declare (d : Draft) (name : Text) (body : Body) : Draft :=
  { d with done := ⟨name, body, d.namer.issued⟩ :: d.done }

end Draft

namespace Shape

/-- Whether a property may be missing: null properties never are, and no property is when optional
fields are not used. -/
def isOptional (useOptional : Bool) (required : List Label) (name : Text) (kind : Kind) : Bool :=
  kind ≠ .null && useOptional && !required.contains (.name name)

mutual

/-- The type of a shape; the objects in it are declared. -/
def typeOf (useOptional : Bool) : Shape → Draft → TypeExpr × Draft
  | ⟨kind, properties, required, items, nullable⟩, d =>
    match kind with
    | .null => (.null, d)
    | .array =>
      let (t, d) := typeOfItems useOptional items d
      (t.withNullable nullable, d)
    | .object =>
      let (t, d) := typeOfProperties useOptional (required.getD []) properties d
      (t.withNullable nullable, d)
    | kind => ((TypeExpr.ofKind kind).withNullable nullable, d)

/-- The type of an array with some elements. -/
def typeOfItems (useOptional : Bool) : Option Shape → Draft → TypeExpr × Draft
  | none, d => (.anyList, d)
  | some s, d =>
    if s.kind = .null then (.anyList, d)
    else
      let (t, d) := typeOf useOptional s d
      (.list t, d)

/-- The type of an object with some properties: if there are any, a name that is handed out now
and declared once the types of the properties are known. -/
def typeOfProperties (useOptional : Bool) (required : List Label) :
    Option (List (Text × Shape)) → Draft → TypeExpr × Draft
  | none, d => (.anyObject, d)
  | some fields, d =>
    if fields.isEmpty then (.anyObject, d)
    else
      let (name, namer) := d.namer.next
      let (fields, d) := fieldsOfProperties useOptional required fields { d with namer }
      (.named name, d.declare name (.record fields))

/-- The fields of some properties. -/
def fieldsOfProperties (useOptional : Bool) (required : List Label) :
    List (Text × Shape) → Draft → List Field × Draft
  | [], d => ([], d)
  | (key, s) :: rest, d =>
    let (type, d) := typeOf useOptional s d
    let optional := isOptional useOptional required key s.kind
    let (fields, d) := fieldsOfProperties useOptional required rest d
    (⟨key, s.kind, type, optional⟩ :: fields, d)

end

/-- The draft that declares a shape under the name of the root. A nullable root with properties
is declared without its null. -/
def drafted (useOptional : Bool) (root : Text) (s : Shape) : Draft :=
  let start : Draft := { namer := { root } }
  if s.isRecord then
    let (fields, d) := fieldsOfProperties useOptional (s.required.getD []) s.fields start
    d.declare root (.record fields)
  else
    let (type, d) := typeOf useOptional s start
    d.declare root (.alias type)

/-- **The declarations of a shape**, in the order in which they are written. -/
def declarations (useOptional : Bool) (root : Text) (s : Shape) : List Declaration :=
  (drafted useOptional root s).done.reverse

end Shape

end TypeSketch
