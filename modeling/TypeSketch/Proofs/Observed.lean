import TypeSketch.Proofs.Regroup
import TypeSketch.Proofs.Sample

/-!
# The flat rule of inference

Inference merges group by group, at every array of every sample. The flat rule only looks at what
was observed at a place in all samples together.

* `Value.under`, `Value.observedAt`: the values observed one step below others, and at a place.
* `Describes`: **the flat rule**, which says what shape describes the values observed at a place.
* `merge_children_of`: below merged shapes of samples lies what merges the values below the samples.
* `inferAll_describes`: **every shape below an inferred one follows the flat rule.**
-/

namespace TypeSketch

open Shape (Step)

namespace Value

/-- The names of the members, none when the value is no object. -/
def memberNames : Value → List Text
  | .object members => Entries.names members
  | _ => []

/-- The member of a name, if the value is an object and has one. -/
def member? (v : Value) (name : Text) : Option Value :=
  match v with
  | .object members => Entries.get? members name
  | _ => none

/-- What an array shows of its elements: an empty one shows one null. -/
def elements? : Value → Option (List Value)
  | .array [] => some [.null]
  | .array elements => some elements
  | _ => none

/-- The values observed one step below some values: one member of each object that has it, or the
elements of all arrays. -/
def under (seen : List Value) : Step → List Value
  | .property name => seen.filterMap fun v => v.member? name
  | .elements => (seen.filterMap elements?).flatten

/-- The values observed at a place in some samples. -/
def observedAt (samples : List Value) (place : List Step) : List Value := place.foldl under samples

/-- The kinds of some values. -/
def kinds (seen : List Value) : List Kind := seen.map kind

/-- **The places that samples have**: every step leads from where objects, or arrays, are the one
kind besides null to where something was observed. -/
def HasPlace (seen : List Value) : List Step → Prop
  | [] => True
  | step :: rest =>
    Kind.Sole (kinds seen) step.kind ∧ under seen step ≠ [] ∧ HasPlace (under seen step) rest

instance decidableHasPlace : ∀ seen place, Decidable (HasPlace seen place)
  | _, [] => isTrue trivial
  | seen, step :: rest =>
    have := decidableHasPlace (under seen step) rest
    inferInstanceAs (Decidable (_ ∧ _ ∧ _))

/-- The names of the members of some values, in the order in which they first occur. -/
def namesSeen (seen : List Value) : List Text := (seen.flatMap memberNames).eraseDups

/-- Whether every object among some values has a member of a name that is not null. -/
def alwaysSet (seen : List Value) (name : Text) : Bool :=
  seen.all fun v => v.kind ≠ .object || (v.member? name).any fun w => !w.isNull

end Value

namespace Shape

/-- The shape at a place below a shape. -/
def at? (s : Shape) : List Step → Option Shape
  | [] => some s
  | step :: rest => (s.child step).bind fun t => t.at? rest

open Value (namesSeen alwaysSet)

/-- **The flat rule.** Nothing but nulls is described by the shape of null, several kinds besides
null by the ambiguous shape, and one kind besides null by a shape of that kind, which is nullable
when a null was observed. The shape of objects has their names in the order of first appearance and
requires those that every object has and has not null. -/
inductive Describes (seen : List Value) : Shape → Prop
  | null (h : ∀ v ∈ seen, v.isNull = true) : Describes seen null
  | mixed (h : Kind.Mixed (Value.kinds seen)) : Describes seen ambiguous
  | scalar {k : Kind} (h : Kind.Sole (Value.kinds seen) k) (hk : k.isScalar = true) :
    Describes seen { kind := k, nullable := seen.any Value.isNull }
  | array {items : Shape} (h : Kind.Sole (Value.kinds seen) .array) :
    Describes seen { kind := .array, items := some items, nullable := seen.any Value.isNull }
  | object {fields : List (Text × Shape)} (h : Kind.Sole (Value.kinds seen) .object)
    (hn : Entries.names fields = namesSeen seen) :
    Describes seen
      { kind := .object
        properties := some fields
        required := Labels.ofNames? ((namesSeen seen).filter (alwaysSet seen))
        nullable := seen.any Value.isNull }

variable {v : Value} {seen : List Value} {s t : Shape} {step : Step}

/-! ## Shapes of observed values -/

theorem formed_map_of (hj : ∀ v ∈ seen, v.IsJson) : ∀ s ∈ seen.map of, s.Formed :=
  List.forall_mem_map.2 fun v hv => formed_of (hj v hv)

theorem kinds_map_of (seen : List Value) : kinds (seen.map of) = Value.kinds seen := by
  simp [kinds, Value.kinds, kind_of]

theorem seesNull_map_of (hj : ∀ v ∈ seen, v.IsJson) :
    seesNull (seen.map of) = seen.any Value.isNull := by
  rw [seesNull, List.any_map, Bool.eq_iff_iff, List.any_eq_true, List.any_eq_true]
  refine exists_congr fun v => and_congr_right fun hv => ?_
  simp [nullable_of, kind_of, (hj v hv).isNull_iff]

theorem names_of (v : Value) : Entries.names (of v).fields = v.memberNames := by
  cases v with
  | object members => rw [fields_of_object, Entries.names_map]; rfl
  | _ => rfl

theorem namesOf_map_of (seen : List Value) : namesOf (seen.map of) = namesSeen seen := by
  rw [namesOf, namesSeen, List.flatMap_map]
  simp only [names_of]

theorem child_of_property (v : Value) (name : Text) :
    (of v).child (.property name) = (v.member? name).map of := by
  cases v with
  | object members => rw [child, fields_of_object, Entries.get?_map]; rfl
  | _ => rfl

theorem child_of_elements (v : Value) :
    (of v).child .elements = v.elements?.map fun elements => merge (elements.map of) := by
  cases v with
  | array elements =>
    rw [child, items_of_array]
    cases elements with
    | nil => simp [Value.elements?, merge_nil, merge_singleton, of]
    | cons => rfl
  | _ => rfl

theorem allRequire_map_of (hj : ∀ v ∈ seen, v.IsJson) (name : Text)
    (hk : ∀ v ∈ seen, v.kind ≠ .null → v.kind = .object) :
    allRequire (solid (seen.map of)) name = alwaysSet seen name := by
  rw [Bool.eq_iff_iff, allRequire_solid (formed_map_of hj), List.forall_mem_map, alwaysSet,
    List.all_eq_true]
  refine forall₂_congr fun v hv => ?_
  rw [kind_of]
  cases hjv : hj v hv with
  | object hd h =>
    rw [requires_of_object hd]
    simp [Value.kind, Value.member?, Option.any_eq_true]
  | null => simp [Value.kind]
  | _ => exact absurd (hk _ hv Kind.noConfusion) Kind.noConfusion

/-- **Merging the shapes of values follows the flat rule at the root.** -/
theorem describes_merge (hj : ∀ v ∈ seen, v.IsJson) : Describes seen (merge (seen.map of)) := by
  have hf := formed_map_of hj
  have hkinds := kinds_map_of seen
  rcases Kind.void_or_sole_or_mixed (Value.kinds seen) with hv | ⟨k, hk⟩ | hm
  · rw [merge_void hf (hkinds ▸ hv)]
    refine .null fun v hmem => ?_
    exact (hj v hmem).isNull_iff.2 (hv _ (List.mem_map_of_mem hmem))
  · rw [merge_sole hf (hkinds ▸ hk)]
    have hsees := seesNull_map_of hj
    cases k with
    | null => exact absurd rfl hk.ne_null
    | string | number | boolean =>
      rw [cover_of_scalar rfl, hsees]
      exact .scalar hk rfl
    | array =>
      rw [cover, hsees]
      exact .array hk
    | object =>
      have hset : allRequire (solid (seen.map of)) = alwaysSet seen := by
        funext name
        exact allRequire_map_of hj name fun v hv h0 => hk.only _ (List.mem_map_of_mem hv) h0
      rw [cover, hsees, hset, namesOf_map_of]
      exact .object hk Entries.names_table
  · rw [merge_mixed (hkinds ▸ hm)]
    exact .mixed hm

/-! ## Places below -/

/-- What lies below JSON values is JSON. -/
theorem isJson_under (hj : ∀ v ∈ seen, v.IsJson) (step : Step) :
    ∀ w ∈ Value.under seen step, w.IsJson := by
  intro w hw
  cases step with
  | property name =>
    obtain ⟨v, hv, hvw⟩ := List.mem_filterMap.1 hw
    cases hjv : hj v hv with
    | object hd h => exact h _ (Entries.mem_of_get? hvw)
    | _ => cases hvw
  | elements =>
    obtain ⟨elements, hmem, hwe⟩ := List.mem_flatten.1 hw
    obtain ⟨v, hv, hve⟩ := List.mem_filterMap.1 hmem
    cases hjv : hj v hv with
    | @array es h =>
      cases es with
      | nil =>
        cases hve
        rw [List.mem_singleton.1 hwe]
        exact .null
      | cons u rest =>
        cases hve
        exact h w hwe
    | _ => cases hve

theorem children_map_property (seen : List Value) (name : Text) :
    children (seen.map of) (.property name) = (Value.under seen (.property name)).map of := by
  rw [children, Value.under, List.filterMap_map, List.map_filterMap]
  exact List.filterMap_congr fun v _ => child_of_property v name

theorem children_map_elements (seen : List Value) :
    children (seen.map of) .elements =
      ((seen.filterMap Value.elements?).map (·.map of)).map merge := by
  rw [children, List.filterMap_map, List.map_map, List.map_filterMap]
  exact List.filterMap_congr fun v _ => child_of_elements v

theorem elements?_ne_nil {elements : List Value} (h : v.elements? = some elements) :
    elements ≠ [] := by
  rintro rfl
  unfold Value.elements? at h
  split at h <;> simp_all

theorem children_map_eq_nil_iff :
    children (seen.map of) step = [] ↔ Value.under seen step = [] := by
  cases step with
  | property name => rw [children_map_property, List.map_eq_nil_iff]
  | elements =>
    rw [children_map_elements, List.map_eq_nil_iff, List.map_eq_nil_iff, Value.under,
      List.flatten_eq_nil_iff]
    constructor
    · intro h
      simp [h]
    · intro h
      refine List.eq_nil_iff_forall_not_mem.2 fun elements hmem => ?_
      obtain ⟨v, -, hv⟩ := List.mem_filterMap.1 hmem
      exact elements?_ne_nil hv (h elements hmem)

/-- **Below the shapes of values, merging gives what merges the shapes of all values below.** At the
elements of arrays this is where the groups are taken apart. -/
theorem merge_children_of (hj : ∀ v ∈ seen, v.IsJson) (step : Step) :
    merge (children (seen.map of) step) = merge ((Value.under seen step).map of) := by
  cases step with
  | property name => rw [children_map_property]
  | elements =>
    rw [children_map_elements, merge_flatten, Value.under, List.map_flatten]
    · intro g hg h0
      obtain ⟨elements, hmem, rfl⟩ := List.mem_map.1 hg
      obtain ⟨v, -, hv⟩ := List.mem_filterMap.1 hmem
      exact elements?_ne_nil hv (List.map_eq_nil_iff.1 h0)
    · intro g hg
      obtain ⟨elements, hmem, rfl⟩ := List.mem_map.1 hg
      refine formed_map_of fun w hw => ?_
      exact isJson_under hj .elements w (List.mem_flatten_of_mem hmem hw)

/-- One step below the shape of some values lies the shape of the values one step below, if the step
leads anywhere. -/
theorem child_merge_of (hj : ∀ v ∈ seen, v.IsJson) :
    (merge (seen.map of)).child step = some t ↔ Kind.Sole (Value.kinds seen) step.kind ∧
      Value.under seen step ≠ [] ∧ t = merge ((Value.under seen step).map of) := by
  have hf := formed_map_of hj
  rw [← kinds_map_of, ← merge_children_of hj, ne_eq, ← children_map_eq_nil_iff]
  constructor
  · intro ht
    have hkind := (formed_merge hf).kind_of_child ht
    rcases Kind.void_or_sole_or_mixed (kinds (seen.map of)) with hv | ⟨k, hk⟩ | hm
    · rw [merge_void hf hv] at ht
      cases step <;> cases ht
    · rw [child_merge hf hk.not_mixed, merge?] at ht
      rw [merge_sole hf hk, kind_cover] at hkind
      split at ht
      · cases ht
      · next hne =>
        cases ht
        exact ⟨hkind ▸ hk, by simpa using hne, rfl⟩
    · rw [merge_mixed hm] at ht
      cases step <;> cases ht
  · rintro ⟨hk, hne, rfl⟩
    obtain ⟨u, hu⟩ := List.exists_mem_of_ne_nil _ hne
    rw [child_merge hf hk.not_mixed, merge?_of_mem hu]

/-- At the places of some values lie the shapes of the values observed there. -/
theorem at_merge_of {place : List Step} (hj : ∀ v ∈ seen, v.IsJson) :
    (merge (seen.map of)).at? place = some t ↔ Value.HasPlace seen place ∧
      t = merge ((Value.observedAt seen place).map of) := by
  induction place generalizing seen with
  | nil =>
    rw [at?, Option.some.injEq, eq_comm]
    exact (and_iff_right trivial).symm
  | cons step rest ih =>
    -- one step down the same question is asked of the values below, by `child_merge_of`
    simp only [at?, Option.bind_eq_some_iff, child_merge_of hj, and_assoc, exists_and_left,
      exists_eq_left, Value.HasPlace, ih (isJson_under hj step)]
    rfl

theorem isJson_observedAt {place : List Step} (hj : ∀ v ∈ seen, v.IsJson) :
    ∀ v ∈ Value.observedAt seen place, v.IsJson := by
  induction place generalizing seen with
  | nil => exact hj
  | cons step rest ih => exact ih (isJson_under hj step)

/-- **Inference follows the flat rule at every place.** Whatever arrays and objects the samples were
nested in, the inferred shape has the places that the samples have, and the shape at each of them
describes all values observed there. -/
theorem inferAll_describes {limit : Option Int} {samples : List Value} {s : Shape}
    (hj : ∀ v ∈ samples, v.IsJson) (h : inferAll limit samples = .ok s) (place : List Step) :
    ((∃ t, s.at? place = some t) ↔ Value.HasPlace samples place) ∧
      ∀ t, s.at? place = some t → Describes (Value.observedAt samples place) t := by
  obtain rfl := eq_of_inferAll hj h
  simp only [at_merge_of hj, exists_and_left, exists_eq, and_true, true_and, and_imp]
  rintro t - rfl
  exact describes_merge (isJson_observedAt hj)

/-- Two samples with arrays of arrays below one name, an empty one and a null among them. -/
def arraySamples : List Value :=
  [.object [("a", .array [.array [.int 1], .array []])],
   .object [("b", .null), ("a", .array [.null, .array [.int 2]])]]

theorem inferAll_arraySamples :
    ∃ s t, inferAll (some 3) arraySamples = .ok s ∧
      s.at? [.property "a", .elements, .elements] = some t ∧
      Describes [.int 1, .null, .int 2] t := by
  have hj : ∀ v ∈ arraySamples, v.IsJson := by decide
  have hs := (inferAll_eq hj (by decide) 3).trans (if_pos (by decide))
  obtain ⟨hplace, hflat⟩ := inferAll_describes hj hs [.property "a", .elements, .elements]
  obtain ⟨t, ht⟩ := hplace.2 (by decide)
  exact ⟨_, t, hs, ht, hflat t ht⟩

end Shape

end TypeSketch
