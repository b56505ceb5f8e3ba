import TypeSketch.Number.Double

/-!
# Sample values

A sample is a JSON value as a decoder delivers it: integers keep all their digits, other numbers are
doubles, and an object keeps its members in the order in which their names first came.

* `Entries`: named things in order, with one entry per name when built by `put`.
* `Value`: a sample. A leaf that no JSON text denotes is `foreign`, with the name of its type.
* `Entries.get?_put`: what a look-up finds after an entry was put.
-/

namespace TypeSketch

/-- Named things in order. -/
abbrev Entries (α : Type) := List (Text × α)

namespace Entries

variable {α : Type}

/-- The names, in order. -/
def names (es : Entries α) : List Text := es.map (·.1)

/-- What the first entry of a name holds. -/
def get? (es : Entries α) (name : Text) : Option α := (es.find? fun e => e.1 = name).map (·.2)

/-- Whether a name has an entry. -/
def has (es : Entries α) (name : Text) : Bool := es.any fun e => e.1 = name

/-- The entries with one more: a name that is there keeps its place and takes the new content. -/
def put : Entries α → Text → α → Entries α
  | [], name, a => [(name, a)]
  | e :: rest, name, a => if e.1 = name then (name, a) :: rest else e :: put rest name a

/-- The entries that putting some pairs one by one leaves. -/
def ofList (pairs : List (Text × α)) : Entries α := pairs.foldl (fun es p => es.put p.1 p.2) []

theorem get?_put (es : Entries α) (name other : Text) (a : α) :
    (es.put name a).get? other = if name = other then some a else es.get? other := by
  induction es with
  | nil => by_cases h : name = other <;> simp [put, get?, h]
  | cons e rest ih =>
    rw [put]
    split
    · next he =>
      by_cases h : name = other
      · simp [get?, h]
      · have : e.1 ≠ other := fun e' => h (he ▸ e')
        simp [get?, h, this]
    · next he =>
      by_cases h : e.1 = other
      · have : name ≠ other := fun e' => he (by rw [h, e'])
        simp [get?, h, this]
      · simp only [get?, List.find?_cons, h, decide_false] at ih ⊢
        exact ih

end Entries

/-- A number of a sample: whole, or of double precision. -/
inductive Numeral where
  | int (n : Int)
  | double (d : Double)
deriving DecidableEq

/-- A sample value. -/
inductive Value where
  | null
  | bool (b : Bool)
  | number (n : Numeral)
  | string (t : Text)
  /-- Values in a row; a tuple counts as such. -/
  | array (elements : List Value)
  | object (members : List (Text × Value))
  /-- Something that no JSON text denotes, known by the name of its type. -/
  | foreign (typeName : Text)

instance : Inhabited Value := ⟨.null⟩

namespace Value

/-- The whole number `n`. -/
def int (n : Int) : Value := .number (.int n)

/-- Whether a value is null. -/
def isNull : Value → Bool
  | .null => true
  | _ => false

/-- Whether a value counts as present: all but null, false, zero, and empty strings, arrays and
objects. -/
def isTruthy : Value → Bool
  | .null => false
  | .bool b => b
  | .number (.int n) => n ≠ 0
  | .number (.double d) => !d.isZero
  | .string t => !t.isEmpty
  | .array elements => !elements.isEmpty
  | .object members => !members.isEmpty
  | .foreign _ => true

end Value

end TypeSketch
