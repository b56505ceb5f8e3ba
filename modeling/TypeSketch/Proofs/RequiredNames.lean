import TypeSketch.Proofs.Obtained
import TypeSketch.Proofs.Offences

/-!
# Required names

What is inferred from values and merged requires properties by their names, at every node.

* `Shape.Everywhere`: something holds at every node of a shape.
* `Shape.RequiresNames`: the set of required labels is missing, or it is not empty and consists of
  names.
* `requiresNames_merge`: **merging keeps it that names are required**, whatever else is merged.
* `requiresNames_run`: so does a row of steps of inferring and merging.
-/

namespace TypeSketch

namespace Shape

/-! ## Every node -/

/-- **Something holds at every node of a shape**, whatever the kinds of the nodes. -/
inductive Everywhere (p : Shape → Prop) : Shape → Prop
  | node {s : Shape} (here : p s) (fields : ∀ f ∈ s.fields, Everywhere p f.2)
    (items : ∀ t, s.items = some t → Everywhere p t) : Everywhere p s

/-- The set of required labels is missing, or it is not empty and consists of names. -/
def RequiresNames (s : Shape) : Prop := ∃ names : List Text, s.required = Labels.ofNames? names

variable {s : Shape} {shapes pool : List Shape} {p q r : Shape → Prop}

theorem Everywhere.of_leaf (h : p s) (hf : s.fields = []) (hi : s.items = none) :
    s.Everywhere p :=
  .node h (by simp [hf]) (by simp [hi])

theorem Everywhere.here (h : s.Everywhere p) : p s := by
  cases h with
  | node here _ _ => exact here

theorem Everywhere.field (h : s.Everywhere p) : ∀ f ∈ s.fields, f.2.Everywhere p := by
  cases h with
  | node _ hf _ => exact hf

theorem Everywhere.element (h : s.Everywhere p) : ∀ t, s.items = some t → t.Everywhere p := by
  cases h with
  | node _ _ hi => exact hi

/-- What follows at a node follows at every node. -/
theorem Everywhere.imp_of (hp : s.Everywhere p) (hq : s.Everywhere q)
    (h : ∀ t, p t → q t → r t) : s.Everywhere r := by
  induction hp with
  | node here _ _ ihf ihi =>
    cases hq with
    | node here' hf' hi' =>
      refine .node (h _ here here') ?_ ?_
      · intro f hf
        exact ihf f hf (hf' f hf)
      · intro t ht
        exact ihi t ht (hi' t ht)

/-! ## What is inferred and merged -/

/-- **Merging shapes that require names gives a shape that does**, whatever else they are. -/
theorem requiresNames_merge (h : ∀ s ∈ shapes, s.Everywhere RequiresNames) :
    (merge shapes).Everywhere RequiresNames := by
  fun_induction merge shapes with
  | case1 s => exact h s List.mem_cons_self
  | case2 => exact .of_leaf ⟨[], rfl⟩ rfl rfl
  | case3 => exact .of_leaf ⟨[], rfl⟩ rfl rfl
  | case4 shapes _ first others hsolid _ _ _ ih =>
    refine .node ⟨_, rfl⟩ (fun f hf => ?_) nofun
    obtain ⟨name, -, rfl⟩ := List.mem_map.1 hf
    refine ih name fun t ht => ?_
    obtain ⟨s, hs, hst⟩ := List.mem_filterMap.1 ht
    have hmem := (mem_solid.1 (hsolid ▸ hs)).1
    exact (h s hmem).field _ (Entries.mem_of_get? hst)
  | case5 shapes _ first others hsolid _ _ _ ih =>
    refine .node ⟨[], rfl⟩ nofun fun t ht => ?_
    cases ht
    refine ih fun u hu => ?_
    obtain ⟨s, hs, hsu⟩ := List.mem_filterMap.1 hu
    have hmem := (mem_solid.1 (hsolid ▸ hs)).1
    exact (h s hmem).element u hsu
  | case6 => exact .of_leaf ⟨[], rfl⟩ rfl rfl

mutual

/-- The shape of a value requires the names of some members. -/
theorem requiresNames_of : ∀ v : Value, (of v).Everywhere RequiresNames
  | .null => .of_leaf ⟨[], rfl⟩ rfl rfl
  | .bool _ => .of_leaf ⟨[], rfl⟩ rfl rfl
  | .number _ => .of_leaf ⟨[], rfl⟩ rfl rfl
  | .string _ => .of_leaf ⟨[], rfl⟩ rfl rfl
  | .foreign _ => .of_leaf ⟨[], rfl⟩ rfl rfl
  | .array elements => by
    refine .node ⟨[], rfl⟩ nofun fun t ht => ?_
    cases ht
    exact requiresNames_merge (requiresNames_ofElements elements)
  | .object members => .node ⟨_, rfl⟩ (requiresNames_ofMembers members) nofun

theorem requiresNames_ofElements : ∀ elements : List Value,
    ∀ s ∈ ofElements elements, s.Everywhere RequiresNames
  | [] => nofun
  | v :: rest => List.forall_mem_cons.2 ⟨requiresNames_of v, requiresNames_ofElements rest⟩

theorem requiresNames_ofMembers : ∀ members : List (Text × Value),
    ∀ f ∈ ofMembers members, f.2.Everywhere RequiresNames
  | [] => nofun
  | (_, v) :: rest => List.forall_mem_cons.2 ⟨requiresNames_of v, requiresNames_ofMembers rest⟩

end

/-- What is inferred is the shape of the value, whatever the limit. -/
theorem requiresNames_infer {limit : Option Int} {v : Value} (h : infer limit v = .ok s) :
    s.Everywhere RequiresNames := by
  cases limit with
  | none =>
    rw [infer, inferAt_none] at h
    cases h
  | some limit =>
    rw [infer, inferAt_orFault, orFault_eq_ok_iff] at h
    rw [← h.2]
    exact requiresNames_of v

theorem requiresNames_inferElements {limit : Option Int} {depth : Nat} {elements : List Value}
    (h : inferElements limit depth elements = .ok shapes) :
    ∀ s ∈ shapes, s.Everywhere RequiresNames := by
  cases limit with
  | none =>
    cases elements with
    | nil =>
      cases h
      nofun
    | cons v rest =>
      rw [inferElements, inferAt_none] at h
      cases h
  | some limit =>
    rw [inferElements_orFault, orFault_eq_ok_iff] at h
    rw [← h.2]
    exact requiresNames_ofElements elements

theorem requiresNames_inferAll {limit : Option Int} {samples : List Value}
    (h : inferAll limit samples = .ok s) : s.Everywhere RequiresNames := by
  rw [inferAll, mapM_infer_eq] at h
  obtain ⟨shapes, hshapes, h⟩ := exists_of_bind_ok h
  split at h
  · cases h
  · cases h
    exact requiresNames_merge (requiresNames_inferElements hshapes)

/-- One step of obtaining shapes gives a shape that requires names. -/
theorem requiresNames_perform {act : Act} (hp : ∀ s ∈ pool, s.Everywhere RequiresNames)
    (h : act.perform pool = .ok s) : s.Everywhere RequiresNames := by
  cases act with
  | infer limit v => exact requiresNames_infer h
  | inferAll limit samples => exact requiresNames_inferAll h
  | merge picks =>
    rw [Act.perform, mergeAll] at h
    split at h
    · cases h
    · cases h
      refine requiresNames_merge fun s hs => ?_
      obtain ⟨i, -, hi⟩ := List.mem_filterMap.1 hs
      exact hp s (List.mem_of_getElem? hi)

/-- **A row of steps gives shapes that require names.** -/
theorem requiresNames_run {acts : List Act} (hp : ∀ s ∈ pool, s.Everywhere RequiresNames) :
    ∀ s ∈ run pool acts, s.Everywhere RequiresNames := by
  induction acts generalizing pool with
  | nil => exact hp
  | cons act rest ih =>
    rw [run]
    cases h : act.perform pool with
    | error f => exact ih hp
    | ok s =>
      apply ih
      intro t ht
      rcases List.mem_append.1 ht with ht | ht
      · exact hp t ht
      · obtain rfl := List.mem_singleton.1 ht
        exact requiresNames_perform hp h

end Shape

end TypeSketch
