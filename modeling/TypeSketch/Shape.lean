import TypeSketch.Value

/-!
# Shapes

The shape of a sample says of which kind it is, which properties an object has and which of them
are required, what the elements of an array look like, and whether null was seen in its place.

* `Shape`: a shape.
* `Labels.ofList`: a set of labels as its increasing list, so that equal sets are equal lists.
* `Shape.requires`: whether a property is required.
* `Shape.same`: equality up to the order of properties.
-/

namespace TypeSketch

/-- The kinds of JSON values. -/
inductive Kind where
  | object
  | array
  | string
  | number
  | boolean
  | null
deriving DecidableEq

namespace Kind

/-- The name of a kind. -/
def name : Kind → Text
  | object => "object"
  | array => "array"
  | string => "string"
  | number => "number"
  | boolean => "boolean"
  | null => "null"

/-- All kinds. -/
def all : List Kind := [object, array, string, number, boolean, null]

/-- The kind of a name. -/
def ofName? (t : Text) : Option Kind := all.find? fun k => k.name = t

theorem ofName?_name (k : Kind) : ofName? k.name = some k := by cases k <;> decide

end Kind

/-- A member of a set of required names. Only texts name properties; a shape that was read from a
record may also list other leaves. -/
inductive Label where
  | null
  | bool (b : Bool)
  | number (n : Numeral)
  | name (t : Text)
deriving DecidableEq

namespace Label

/-- The place of a label's kind in the order of labels. -/
def rank : Label → Nat
  | null => 0
  | bool false => 1
  | bool true => 2
  | number (.int _) => 3
  | number (.double _) => 4
  | name _ => 5

/-- An order of labels; names are ordered by their code points. -/
def lt : Label → Label → Bool
  | name s, name t => Text.lt s t
  | number (.int m), number (.int n) => m < n
  | number (.double x), number (.double y) => x.bits < y.bits
  | a, b => a.rank < b.rank

end Label

namespace Labels

/-- A label put into an increasing list, once. -/
def insert (a : Label) : List Label → List Label
  | [] => [a]
  | b :: rest => if a = b then b :: rest else if a.lt b then a :: b :: rest else b :: insert a rest

/-- A set of labels as its increasing list. -/
def ofList (labels : List Label) : List Label := labels.foldr insert []

/-- A set of labels, or nothing when it is empty. -/
def ofList? (labels : List Label) : Option (List Label) :=
  if labels.isEmpty then none else some (ofList labels)

/-- A set of names, or nothing when it is empty. -/
def ofNames? (names : List Text) : Option (List Label) := ofList? (names.map .name)

theorem mem_insert {a b : Label} {labels : List Label} :
    b ∈ insert a labels ↔ b = a ∨ b ∈ labels := by
  induction labels with
  | nil => simp [insert]
  | cons c rest ih =>
    rw [insert]
    by_cases h : a = c
    · simp [h]
    · rw [if_neg h]
      by_cases h' : a.lt c = true
      · simp [h']
      · rw [if_neg h', List.mem_cons, ih, List.mem_cons, ← or_assoc, ← or_assoc,
          or_comm (a := b = c)]

/-- **The list has the members of the set.** -/
theorem mem_ofList {b : Label} {labels : List Label} : b ∈ ofList labels ↔ b ∈ labels := by
  induction labels with
  | nil => simp [ofList]
  | cons a rest ih =>
    have : ofList (a :: rest) = insert a (ofList rest) := rfl
    rw [this, mem_insert, ih, List.mem_cons]

end Labels

/-- The shape of a value. -/
structure Shape where
  kind : Kind
  /-- For objects: the properties in the order in which they were first seen. -/
  properties : Option (List (Text × Shape)) := none
  /-- The labels that are present and not null in every object seen, if there are any. -/
  required : Option (List Label) := none
  /-- For arrays: the shape of the elements. -/
  items : Option Shape := none
  /-- Whether null was seen in the place of a value. -/
  nullable : Bool := false

namespace Shape

instance : Inhabited Shape := ⟨{ kind := .null }⟩

/-- The shape of null. -/
def null : Shape := { kind := .null }

/-- What is said of values of several kinds: nothing more than a text that may be null. -/
def ambiguous : Shape := { kind := .string, nullable := true }

/-- The properties, none when they are not given. -/
def fields (s : Shape) : List (Text × Shape) := s.properties.getD []

/-- Whether a property is required. -/
def requires (s : Shape) (name : Text) : Bool := (s.required.getD []).contains (.name name)

/-- An object with at least one property, which is what gets a declaration of its own. -/
def isRecord (s : Shape) : Bool := s.kind = .object && !s.fields.isEmpty

mutual

/-- The number of shapes in a shape, itself included. -/
def weight : Shape → Nat
  | ⟨_, properties, _, items, _⟩ => 1 + propertiesWeight properties + itemsWeight items

/-- The number of shapes in the properties. -/
def propertiesWeight : Option (List (Text × Shape)) → Nat
  | none => 0
  | some fields => fieldsWeight fields

/-- The number of shapes in the elements. -/
def itemsWeight : Option Shape → Nat
  | none => 0
  | some s => weight s

/-- The number of shapes in a list of properties. -/
def fieldsWeight : List (Text × Shape) → Nat
  | [] => 0
  | (_, s) :: rest => weight s + fieldsWeight rest

end

mutual

/-- Whether two shapes are equal up to the order of properties. -/
def same : Shape → Shape → Bool
  | ⟨k, properties, required, items, nullable⟩, t =>
    k = t.kind && required = t.required && nullable = t.nullable &&
      sameProperties properties t.properties && sameItems items t.items

/-- Whether two sets of properties are both missing or equal. -/
def sameProperties : Option (List (Text × Shape)) → Option (List (Text × Shape)) → Bool
  | none, none => true
  | some fields, some fields' => fields.length = fields'.length && sameFields fields fields'
  | _, _ => false

/-- Whether two element shapes are both missing or equal. -/
def sameItems : Option Shape → Option Shape → Bool
  | none, none => true
  | some s, some t => same s t
  | _, _ => false

/-- Whether each property of a list is found, equal, in another. -/
def sameFields : List (Text × Shape) → List (Text × Shape) → Bool
  | [], _ => true
  | (name, s) :: rest, fields =>
    (match Entries.get? fields name with
      | some t => same s t
      | none => false) && sameFields rest fields

end

end Shape

end TypeSketch
