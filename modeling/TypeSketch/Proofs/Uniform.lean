import TypeSketch.Proofs.Observed

/-!
# Samples without conflicts

* `Value.Uniform`: at no place there are two kinds besides null, and a property that is only null is
  there in every object observed at its place.
* `Uniform.under`, `Uniform.of_below`: it holds of samples iff it holds at their root and of what
  lies one step below them.
* `Uniform.kind_eq`, `Uniform.mem_memberNames`: the shape of such samples tells the kind of every
  one that is not null, and names that every object has.
-/

namespace TypeSketch

open Shape (Step merge of)

namespace Value

/-- **Samples without conflicts**: at no place there are two kinds besides null, and a property that
is only null is there in every object observed at its place. -/
structure Uniform (seen : List Value) : Prop where
  json : ∀ v ∈ seen, v.IsJson
  sole : ∀ place, ¬ Kind.Mixed (kinds (observedAt seen place))
  nulls : ∀ place name, under (observedAt seen place) (.property name) ≠ [] →
    (∀ w ∈ under (observedAt seen place) (.property name), w.isNull = true) →
    ∀ v ∈ observedAt seen place, v.kind = .object → name ∈ v.memberNames

variable {seen : List Value} {s : Shape} {v : Value} {name : Text}

theorem Uniform.under (h : Uniform seen) (step : Step) : Uniform (Value.under seen step) where
  json := Shape.isJson_under h.json step
  sole place := h.sole (step :: place)
  nulls place := h.nulls (step :: place)

theorem Uniform.nil : Uniform [] := by
  have hempty : ∀ place, observedAt [] place = [] := by
    intro place
    induction place with
    | nil => rfl
    | cons step rest ih => cases step <;> exact ih
  constructor
  · simp
  · intro place
    rw [hempty]
    rintro ⟨k, hk, -⟩
    cases hk
  · intro place name hne
    rw [hempty] at hne
    exact absurd rfl hne

/-- A value that counts as null is the null. -/
theorem eq_null_of_isNull (h : v.isNull = true) : v = .null := by
  cases v with
  | null => rfl
  | _ => cases h

theorem mem_memberNames : name ∈ v.memberNames ↔ ∃ w, v.member? name = some w := by
  cases v with
  | object members =>
    refine ⟨fun h => Option.ne_none_iff_exists'.1 fun hnone => ?_, fun ⟨w, hw⟩ => ?_⟩
    · exact Entries.get?_eq_none_iff.1 hnone h
    · exact Entries.mem_names_of_get? hw
  | _ => simp [memberNames, member?]

/-- Nothing is observed under a name that no value has. -/
theorem under_property_eq_nil (h : name ∉ namesSeen seen) :
    Value.under seen (.property name) = [] := by
  refine List.filterMap_eq_nil_iff.2 fun v hv => Option.eq_none_iff_forall_ne_some.2 fun w hw => ?_
  refine h ?_
  rw [namesSeen, List.mem_eraseDups]
  exact List.mem_flatMap.2 ⟨v, hv, mem_memberNames.2 ⟨w, hw⟩⟩

/-- Samples are without conflicts if there is none at their root and none below it. -/
theorem Uniform.of_below (hj : ∀ v ∈ seen, v.IsJson) (hm : ¬ Kind.Mixed (kinds seen))
    (hn : ∀ name ∈ namesSeen seen, (∀ w ∈ Value.under seen (.property name), w.isNull = true) →
      ∀ v ∈ seen, v.kind = .object → name ∈ v.memberNames)
    (hp : ∀ name ∈ namesSeen seen, Uniform (Value.under seen (.property name)))
    (he : Uniform (Value.under seen .elements)) : Uniform seen := by
  have hstep : ∀ step, Uniform (Value.under seen step) := by
    rintro (name | _)
    · by_cases hname : name ∈ namesSeen seen
      · exact hp name hname
      · rw [under_property_eq_nil hname]
        exact .nil
    · exact he
  refine ⟨hj, fun place => ?_, fun place => ?_⟩
  · cases place with
    | nil => exact hm
    | cons step rest => exact (hstep step).sole rest
  · cases place with
    | nil =>
      intro name hne
      by_cases hname : name ∈ namesSeen seen
      · exact hn name hname
      · exact absurd (under_property_eq_nil hname) hne
    | cons step rest => exact (hstep step).nulls rest

/-- All values but nulls are of the kind of their shape. -/
theorem Uniform.kind_eq (hu : Uniform seen) (hs : s = merge (seen.map of)) (hv : v ∈ seen)
    (hnull : v.isNull = false) : v.kind = s.kind := by
  have hne : v.kind ≠ .null := fun h0 => by simp [(hu.json v hv).isNull_iff.2 h0] at hnull
  have hd := Shape.describes_merge hu.json
  rw [← hs] at hd
  cases hd with
  | null hall => simp [hall v hv] at hnull
  | mixed hm => exact absurd hm (hu.sole [])
  | scalar hk | array hk | object hk => exact hk.only _ (List.mem_map_of_mem hv) hne

/-- What a shape of objects requires, every object has. -/
theorem Uniform.mem_memberNames (hu : Uniform seen) (hs : s = merge (seen.map of))
    (hr : s.requires name = true) (hv : v ∈ seen) (hk : v.kind = .object) :
    name ∈ v.memberNames := by
  have hd := Shape.describes_merge hu.json
  rw [← hs] at hd
  cases hd with
  | null | scalar | mixed | array => cases hr
  | object _ _ =>
    have hset := (List.mem_filter.1 (Labels.mem_ofNames?.1 hr)).2
    have hall := List.all_eq_true.1 hset v hv
    rw [Bool.or_eq_true, decide_eq_true_eq] at hall
    obtain ⟨w, hw, -⟩ := (Option.any_eq_true _ _).1 (hall.resolve_left fun h => h hk)
    exact mem_memberNames.2 ⟨w, hw⟩

end Value

end TypeSketch
