import TypeSketch.Fault
import TypeSketch.Shape

/-!
# Shapes as records

A shape is written as a JSON object with the members `type`, `properties`, `required`, `items` and
`nullable`, of which only `type` is always there, and read back from one.

* `Shape.toRecord`: the record of a shape.
* `Shape.ofRecord`: the shape of a record. Of several faults the first one counts, in the order
  type, properties, required, items.
-/

namespace TypeSketch.Shape

/-- A label as a value. -/
def labelValue : Label → Value
  | .null => .null
  | .bool b => .bool b
  | .number n => .number n
  | .name t => .string t

/-- A value as a label, if it is a leaf. -/
def label? : Value → Option Label
  | .null => some .null
  | .bool b => some (.bool b)
  | .number n => some (.number n)
  | .string t => some (.name t)
  | .array _ | .object _ | .foreign _ => none

/-- The member `type` of a record. -/
def kindMember (kind : Kind) : Text × Value := ("type", .string kind.name)

/-- The member `nullable` of a record. -/
def nullableMember (nullable : Bool) : List (Text × Value) :=
  if nullable then [("nullable", .bool true)] else []

/-- The member `required` of a record. -/
def requiredMember (required : Option (List Label)) : List (Text × Value) :=
  match required with
  | none | some [] => []
  | some labels => [("required", .array (labels.map labelValue))]

mutual

/-- The record of a shape. -/
def toRecord : Shape → Value
  | ⟨kind, properties, required, items, nullable⟩ =>
    .object (kindMember kind :: (propertiesMember properties ++ requiredMember required ++
      itemsMember items ++ nullableMember nullable))

/-- The member `properties` of a record. -/
def propertiesMember : Option (List (Text × Shape)) → List (Text × Value)
  | none => []
  | some fields => [("properties", .object (fieldRecords fields))]

/-- The member `items` of a record. -/
def itemsMember : Option Shape → List (Text × Value)
  | none => []
  | some s => [("items", toRecord s)]

/-- The records of some properties. -/
def fieldRecords : List (Text × Shape) → List (Text × Value)
  | [] => []
  | (name, s) :: rest => (name, toRecord s) :: fieldRecords rest

end

/-- The kind that the member `type` of a record names. -/
def kindOf (members : List (Text × Value)) : Except Fault Kind :=
  match Entries.get? members "type" with
  | none => .error .missingKind
  | some given =>
    match given with
    | .string t =>
      match Kind.ofName? t with
      | some k => .ok k
      | none => .error (.unknownKind given)
    | _ => .error (.unknownKind given)

/-- The labels that the member `required` of a record lists: those of an array, the names of an
object or the code points of a text. -/
def requiredOf (members : List (Text × Value)) : Except Fault (Option (List Label)) :=
  match Entries.get? members "required" with
  | none => .ok none
  | some given =>
    if given.isTruthy then
      match given with
      | .array elements =>
        match elements.mapM label? with
        | some labels => .ok (Labels.ofList? labels)
        | none => .error .requiredNotLabels
      | .object entries => .ok (Labels.ofNames? (Entries.names entries))
      | .string t => .ok (Labels.ofNames? (t.map fun c => [c]))
      | _ => .error .requiredNotLabels
    else .ok none

/-- Whether the member `nullable` of a record is set. -/
def nullableOf (members : List (Text × Value)) : Bool :=
  ((Entries.get? members "nullable").map Value.isTruthy).getD false

mutual

/-- The shape of a record. -/
def ofRecord : Value → Except Fault Shape
  | .object members => do
    let kind ← kindOf members
    let properties ← propertiesOf members
    let required ← requiredOf members
    let items ← itemsOf members
    pure { kind, properties, required, items, nullable := nullableOf members }
  | _ => .error .recordNotObject

/-- The shapes that the member `properties` of a record holds. -/
def propertiesOf : List (Text × Value) → Except Fault (Option (List (Text × Shape)))
  | [] => .ok none
  | (name, v) :: rest =>
    if name = "properties" then
      match v with
      | .null => .ok none
      | .object fields => some <$> fieldsOf fields
      | _ => .error .propertiesNotObject
    else propertiesOf rest

/-- The shape that the member `items` of a record holds. -/
def itemsOf : List (Text × Value) → Except Fault (Option Shape)
  | [] => .ok none
  | (name, v) :: rest =>
    if name = "items" then
      match v with
      | .null => .ok none
      | v => some <$> ofRecord v
    else itemsOf rest

/-- The shapes of some records. -/
def fieldsOf : List (Text × Value) → Except Fault (List (Text × Shape))
  | [] => .ok []
  | (name, v) :: rest => do
    let s ← ofRecord v
    let fields ← fieldsOf rest
    pure ((name, s) :: fields)

end

end TypeSketch.Shape
