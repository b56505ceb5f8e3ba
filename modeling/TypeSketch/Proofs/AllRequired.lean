import TypeSketch.Proofs.Listing

/-!
# Requiring every property

Optional fields are not used, or every property is required: either way no field is optional.

* `Shape.requireAll`: the shape in which every object requires all its properties.
* `requires_requireAll`: it requires what it has.
* `isOptional_of_required`: **a required property is treated as any property is without optional
  fields.**
* `typeOf_requireAll`: **the walk without optional fields is the walk through that shape**, from
  every draft: the same names are handed out and the same declarations made, in the same order.
* `generate_requireAll`: what is generated is the same in every format.
-/

namespace TypeSketch.Shape

/-! ## The shape that requires everything -/

mutual

/-- The shape in which every object requires all its properties and nothing else. -/
def requireAll : Shape → Shape
  | ⟨kind, properties, required, items, nullable⟩ =>
    { kind
      properties := requireAllProperties properties
      required :=
        if kind = .object then some (Labels.ofList ((Entries.names (properties.getD [])).map .name))
        else required
      items := requireAllItems items
      nullable }

/-- The properties of an object, all objects in which require everything. -/
def requireAllProperties : Option (List (Text × Shape)) → Option (List (Text × Shape))
  | none => none
  | some fields => some (requireAllFields fields)

/-- The elements of an array, all objects in which require everything. -/
def requireAllItems : Option Shape → Option Shape
  | none => none
  | some s => some (requireAll s)

/-- Some properties, all objects in which require everything. -/
def requireAllFields : List (Text × Shape) → List (Text × Shape)
  | [] => []
  | (key, s) :: rest => (key, requireAll s) :: requireAllFields rest

end

variable {s : Shape} {fields : List (Text × Shape)} {required : List Label} {key : Text}
  {kind : Kind}

theorem requireAllFields_eq (fields : List (Text × Shape)) :
    requireAllFields fields = fields.map fun f => (f.1, f.2.requireAll) := by
  induction fields with
  | nil => rfl
  | cons f rest ih => rw [requireAllFields, ih, List.map_cons]

@[simp] theorem kind_requireAll (s : Shape) : s.requireAll.kind = s.kind := by cases s; rfl

theorem fields_requireAll (s : Shape) : s.requireAll.fields = requireAllFields s.fields := by
  obtain ⟨kind, properties, required, items, nullable⟩ := s
  cases properties <;> rfl

@[simp] theorem isRecord_requireAll (s : Shape) : s.requireAll.isRecord = s.isRecord := by
  simp [isRecord, fields_requireAll, requireAllFields_eq]

/-- **An object requires what it has.** -/
theorem requires_requireAll (hk : s.kind = .object) :
    s.requireAll.requires key = true ↔ key ∈ Entries.names s.fields := by
  obtain ⟨kind, properties, required, items, nullable⟩ := s
  cases hk
  simp [requires, requireAll, Labels.mem_ofList, Shape.fields]

/-! ## Two walks -/

/-- A required property is treated as any property is without optional fields. -/
theorem isOptional_of_required {required' : List Label} (h : Label.name key ∈ required') :
    isOptional true required' key kind = isOptional false required key kind := by
  simp [isOptional, h]

mutual

/-- **The walk without optional fields is the walk through the shape that requires everything.** -/
theorem typeOf_requireAll : ∀ (s : Shape) (d : Draft),
    typeOf true s.requireAll d = typeOf false s d
  | ⟨kind, properties, required, items, nullable⟩, d => by
    cases kind with
    | null | string | number | boolean => rfl
    | array => rw [requireAll, typeOf, typeOf, typeOfItems_requireAll]
    | object =>
      rw [requireAll, typeOf, typeOf, if_pos rfl, Option.getD_some,
        typeOfProperties_requireAll (required.getD []) _ properties d]
      intro f hf
      exact Labels.mem_ofList.2 (List.mem_map_of_mem (List.mem_map_of_mem hf))

theorem typeOfItems_requireAll : ∀ (items : Option Shape) (d : Draft),
    typeOfItems true (requireAllItems items) d = typeOfItems false items d
  | none, _ => rfl
  | some s, d => by
    rw [requireAllItems, typeOfItems, typeOfItems, kind_requireAll, typeOf_requireAll]

/-- The name of an object is handed out before the walk goes on, in both walks. -/
theorem typeOfProperties_requireAll (required required' : List Label) :
    ∀ (properties : Option (List (Text × Shape))) (d : Draft),
      (∀ f ∈ properties.getD [], Label.name f.1 ∈ required') →
      typeOfProperties true required' (requireAllProperties properties) d =
        typeOfProperties false required properties d
  | none, _, _ => rfl
  | some fields, d, h => by
    have hempty : (requireAllFields fields).isEmpty = fields.isEmpty := by
      rw [requireAllFields_eq, List.isEmpty_map]
    have hfields := fun d => fieldsOfProperties_requireAll required required' fields d h
    rw [requireAllProperties, typeOfProperties, typeOfProperties, hempty]
    simp only [hfields]

theorem fieldsOfProperties_requireAll (required required' : List Label) :
    ∀ (fields : List (Text × Shape)) (d : Draft),
      (∀ f ∈ fields, Label.name f.1 ∈ required') →
      fieldsOfProperties true required' (requireAllFields fields) d =
        fieldsOfProperties false required fields d
  | [], _, _ => rfl
  | (key, s) :: rest, d, h => by
    have hrest := fun d => fieldsOfProperties_requireAll required required' rest d
      fun f hf => h f (List.mem_cons_of_mem _ hf)
    have hoptional : ∀ kind, isOptional true required' key kind =
        isOptional false required key kind := fun _ =>
      isOptional_of_required (h (key, s) List.mem_cons_self)
    rw [requireAllFields, fieldsOfProperties, fieldsOfProperties, kind_requireAll,
      typeOf_requireAll, hoptional]
    simp only [hrest]

end

/-- **Both walks end in the same draft**, with the same names handed out. -/
theorem drafted_requireAll (root : Text) (s : Shape) :
    drafted true root s.requireAll = drafted false root s := by
  rw [drafted, drafted, isRecord_requireAll]
  by_cases hr : s.isRecord = true
  · have hk := (isRecord_iff.1 hr).1
    have hrequired : ∀ f ∈ s.fields, Label.name f.1 ∈ s.requireAll.required.getD [] := by
      intro f hf
      have hreq := (requires_requireAll hk).2 (List.mem_map_of_mem hf)
      exact List.contains_iff_mem.1 hreq
    rw [if_pos hr, if_pos hr, fields_requireAll,
      fieldsOfProperties_requireAll (s.required.getD []) _ s.fields _ hrequired]
  · rw [if_neg hr, if_neg hr, typeOf_requireAll]

theorem declarations_requireAll (root : Text) (s : Shape) :
    s.requireAll.declarations true root = s.declarations false root := by
  rw [declarations, declarations, drafted_requireAll]

/-- **Without optional fields, what is generated is what is generated for the shape that requires
everything**, in every format and under every name of the root. -/
theorem generate_requireAll (s : Shape) (settings : Settings) (target : Target) : ∃ g,
    generate s { settings with format := .string target.name, useOptional := false } = .ok g ∧
    generate s.requireAll
      { settings with format := .string target.name, useOptional := true } = .ok g := by
  refine ⟨_, generate_eq rfl s, ?_⟩
  rw [generate_eq rfl s.requireAll, declarations_requireAll]

end TypeSketch.Shape
