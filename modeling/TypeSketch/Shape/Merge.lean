import TypeSketch.Fault
import TypeSketch.Shape

/-!
# Merging shapes

The shapes seen at one place are merged into one that covers them all.

* `Shape.merge`: the shape of several; of none it is the shape of null.
* `Shape.observed`: the shapes of one property in several objects.
* `Shape.weight_observed_lt`: they are smaller than the objects, so merging comes to an end.
-/

namespace TypeSketch.Shape

/-- The names of the properties of some objects, in the order in which they first occur. -/
def namesOf (objects : List Shape) : List Text :=
  (objects.flatMap fun o => Entries.names o.fields).eraseDups

/-- The shapes of one property in the objects that have it. -/
def observed (objects : List Shape) (name : Text) : List Shape :=
  objects.filterMap fun o => Entries.get? o.fields name

/-- Whether every object has a property and requires it. -/
def allRequire (objects : List Shape) (name : Text) : Bool :=
  objects.all fun o => Entries.has o.fields name && o.requires name

/-- The weight of several shapes. -/
def weights : List Shape → Nat
  | [] => 0
  | s :: rest => s.weight + weights rest

theorem weight_pos (s : Shape) : 0 < s.weight := by
  obtain ⟨k, p, r, i, n⟩ := s
  rw [weight]
  omega

theorem weight_get?_le {fields : List (Text × Shape)} {name : Text} {s : Shape}
    (h : Entries.get? fields name = some s) : s.weight ≤ fieldsWeight fields := by
  induction fields with
  | nil => cases h
  | cons f rest ih =>
    obtain ⟨other, t⟩ := f
    rw [fieldsWeight]
    by_cases he : other = name
    · simp only [Entries.get?, List.find?_cons, he, decide_true, Option.map_some,
        Option.some.injEq] at h
      rw [h]
      exact Nat.le_add_right _ _
    · simp only [Entries.get?, List.find?_cons, he, decide_false] at h
      have := ih h
      omega

theorem fieldsWeight_lt (s : Shape) : fieldsWeight s.fields < s.weight := by
  obtain ⟨k, p, r, i, n⟩ := s
  cases p with
  | none => simp only [fields, Option.getD_none, fieldsWeight]; exact weight_pos _
  | some fs => simp only [fields, Option.getD_some, weight, propertiesWeight]; omega

theorem weight_items_lt {s t : Shape} (h : s.items = some t) : t.weight < s.weight := by
  obtain ⟨k, p, r, i, n⟩ := s
  simp only at h
  subst h
  rw [weight, itemsWeight]
  omega

/-- The shapes that are of another kind than null. -/
def solid (shapes : List Shape) : List Shape := shapes.filter fun s => s.kind ≠ .null

theorem weights_filter_le (p : Shape → Bool) (shapes : List Shape) :
    weights (shapes.filter p) ≤ weights shapes := by
  induction shapes with
  | nil => exact Nat.le_refl _
  | cons s rest ih =>
    rw [List.filter_cons]
    split
    · simp only [weights]; omega
    · simp only [weights]; omega

theorem weights_filterMap_lt {f : Shape → Option Shape}
    (hf : ∀ s t, f s = some t → t.weight < s.weight)
    {shapes : List Shape} (hne : shapes ≠ []) : weights (shapes.filterMap f) < weights shapes := by
  induction shapes with
  | nil => exact absurd rfl hne
  | cons s rest ih =>
    have hrest : weights (rest.filterMap f) ≤ weights rest := by
      cases rest with
      | nil => exact Nat.le_refl _
      | cons t rest => exact Nat.le_of_lt (ih (by simp))
    have hs := weight_pos s
    cases h : f s with
    | none => rw [List.filterMap_cons_none h, weights]; omega
    | some t =>
      have := hf s t h
      rw [List.filterMap_cons_some h, weights, weights]
      omega

/-- **What was observed of a property is smaller than the objects it was observed in.** -/
theorem weight_observed_lt {objects : List Shape} (hne : objects ≠ []) (name : Text) :
    weights (observed objects name) < weights objects :=
  weights_filterMap_lt
    (fun s _ h => Nat.lt_of_le_of_lt (weight_get?_le h) (fieldsWeight_lt s)) hne

theorem weight_itemsOf_lt {arrays : List Shape} (hne : arrays ≠ []) :
    weights (arrays.filterMap (·.items)) < weights arrays :=
  weights_filterMap_lt (fun _ _ h => weight_items_lt h) hne

/-- The shape that covers some shapes. One shape is left as it is. Null only makes the result
nullable. Shapes of two or more kinds besides null give the ambiguous one. Objects are merged
property by property, and a property is required when all of them require it; arrays are
merged element by element. -/
def merge (shapes : List Shape) : Shape :=
  match shapes with
  | [s] => s
  | shapes =>
    match _h : solid shapes with
    | [] => null
    | first :: others =>
      let nullable := others.length + 1 < shapes.length || (first :: others).any (·.nullable)
      if others.any fun s => s.kind ≠ first.kind then ambiguous
      else match first.kind with
        | .object =>
          { kind := .object
            properties := some
              ((namesOf (first :: others)).map fun name =>
                (name, merge (observed (first :: others) name)))
            required := Labels.ofNames?
              ((namesOf (first :: others)).filter (allRequire (first :: others)))
            nullable }
        | .array =>
          { kind := .array
            items := some (merge ((first :: others).filterMap (·.items)))
            nullable }
        | kind => { kind, nullable }
termination_by weights shapes
decreasing_by
  -- Setting nulls aside adds no weight, and what lies in a shape weighs less than the shape.
  all_goals
    have hle := weights_filter_le (fun s : Shape => decide (s.kind ≠ .null)) shapes
    rw [← solid, _h] at hle
  · exact Nat.lt_of_lt_of_le (weight_observed_lt (List.cons_ne_nil _ _) name) hle
  · exact Nat.lt_of_lt_of_le (weight_itemsOf_lt (List.cons_ne_nil _ _)) hle

/-- Merging where at least one shape is asked for. -/
def mergeAll (shapes : List Shape) : Except Fault Shape :=
  if shapes.isEmpty then .error .nothingToMerge else .ok (merge shapes)

end TypeSketch.Shape
