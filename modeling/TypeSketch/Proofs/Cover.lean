import TypeSketch.Proofs.Names
import TypeSketch.Shape.Merge

/-!
# Covers of well-formed shapes

Merging distinguishes one shape from several, sets nulls aside and looks at the first kind that is
left. For well-formed shapes the outcome only depends on the kinds that occur.

* `Kind.Sole`, `Kind.Mixed`, `Kind.Void`: one, several or no kinds besides null.
* `Shape.Formed`: the shapes that inference and merging produce.
* `Shape.cover`: the merged shape when one kind occurs, the same rule for one shape as for many.
* `merge_void`, `merge_mixed`, `merge_sole`: **what merging gives in each of the three cases.**
* `formed_merge`: merging well-formed shapes gives a well-formed shape.
* `child_merge`: what lies one step below a merged shape is merged from what lies there.
-/

namespace TypeSketch

namespace Kind

/-- Nothing but null occurs. -/
def Void (kinds : List Kind) : Prop := ∀ k ∈ kinds, k = .null

/-- `k` occurs, and no other kind besides null. -/
structure Sole (kinds : List Kind) (k : Kind) : Prop where
  ne_null : k ≠ .null
  mem : k ∈ kinds
  only : ∀ j ∈ kinds, j ≠ .null → j = k

/-- Two kinds besides null occur. -/
def Mixed (kinds : List Kind) : Prop :=
  ∃ j ∈ kinds, ∃ k ∈ kinds, j ≠ .null ∧ k ≠ .null ∧ j ≠ k

variable {kinds : List Kind} {k : Kind}

theorem sole_iff :
    Sole kinds k ↔ k ≠ .null ∧ k ∈ kinds ∧ ∀ j ∈ kinds, j ≠ .null → j = k :=
  ⟨fun h => ⟨h.ne_null, h.mem, h.only⟩, fun ⟨h0, hm, ho⟩ => ⟨h0, hm, ho⟩⟩

instance : Decidable (Sole kinds k) := decidable_of_iff _ sole_iff.symm

instance : Decidable (Mixed kinds) :=
  inferInstanceAs (Decidable (∃ j ∈ kinds, ∃ k ∈ kinds, j ≠ .null ∧ k ≠ .null ∧ j ≠ k))

theorem void_or_sole_or_mixed (kinds : List Kind) :
    Void kinds ∨ (∃ k, Sole kinds k) ∨ Mixed kinds := by
  by_cases hv : Void kinds
  · exact .inl hv
  obtain ⟨k, hk, hk0⟩ : ∃ k ∈ kinds, k ≠ .null := by
    simpa only [Void, not_forall, exists_prop] using hv
  by_cases ho : ∀ j ∈ kinds, j ≠ .null → j = k
  · exact .inr (.inl ⟨k, hk0, hk, ho⟩)
  · obtain ⟨j, hj, hj0, hjk⟩ : ∃ j ∈ kinds, j ≠ .null ∧ j ≠ k := by
      simpa only [not_forall, exists_prop] using ho
    exact .inr (.inr ⟨j, hj, k, hk, hj0, hk0, hjk⟩)

theorem Sole.not_mixed (h : Sole kinds k) : ¬ Mixed kinds := by
  rintro ⟨i, hi, j, hj, hi0, hj0, hij⟩
  exact hij ((h.only i hi hi0).trans (h.only j hj hj0).symm)

/-- The kinds of values that have no parts. -/
def isScalar : Kind → Bool
  | string | number | boolean => true
  | object | array | null => false

end Kind

namespace Shape

/-- **The shapes that inference and merging produce.** An object lists its properties, each name
once, and the set of required names is missing or holds some of them; an array says what its
elements are; a scalar has neither, and the shape of null is not marked nullable. -/
inductive Formed : Shape → Prop
  | null : Formed null
  | scalar {k : Kind} {nullable : Bool} (hk : k.isScalar = true) : Formed { kind := k, nullable }
  | array {items : Shape} {nullable : Bool} (hi : Formed items) :
    Formed { kind := .array, items := some items, nullable }
  | object {fields : List (Text × Shape)} {names : List Text} {nullable : Bool}
    (hd : (Entries.names fields).Nodup) (hf : ∀ f ∈ fields, Formed f.2)
    (hn : ∀ name ∈ names, name ∈ Entries.names fields) :
    Formed
      { kind := .object, properties := some fields, required := Labels.ofNames? names, nullable }

/-- A step from a place to one below it. -/
inductive Step where
  | property (name : Text)
  | elements
deriving DecidableEq

/-- The kind of the shapes that a step leads below. -/
def Step.kind : Step → Kind
  | .property _ => .object
  | .elements => .array

theorem Step.kind_ne_null (step : Step) : step.kind ≠ .null := by
  cases step <;> exact Kind.noConfusion

/-- The shape one step below a shape. -/
def child (s : Shape) : Step → Option Shape
  | .property name => Entries.get? s.fields name
  | .elements => s.items

/-- The shapes one step below some shapes. -/
def children (shapes : List Shape) (step : Step) : List Shape :=
  shapes.filterMap fun s => s.child step

/-- Whether null occurs, or was seen when one of the shapes was inferred. -/
def seesNull (shapes : List Shape) : Bool := shapes.any fun s => s.kind = .null || s.nullable

/-- The merged shape when `k` is the one kind besides null. -/
def cover (k : Kind) (shapes : List Shape) : Shape :=
  match k with
  | .object =>
    { kind := .object
      properties := some
        ((namesOf shapes).map fun name => (name, merge (children shapes (.property name))))
      required := Labels.ofNames? ((namesOf shapes).filter (allRequire (solid shapes)))
      nullable := seesNull shapes }
  | .array =>
    { kind := .array
      items := some (merge (children shapes .elements))
      nullable := seesNull shapes }
  | k => { kind := k, nullable := seesNull shapes }

/-- The kinds of some shapes. -/
def kinds (shapes : List Shape) : List Kind := shapes.map (·.kind)

variable {s t : Shape} {shapes : List Shape} {step : Step} {k : Kind}

theorem mem_kinds (h : s ∈ shapes) : s.kind ∈ kinds shapes := List.mem_map_of_mem h

theorem ne_nil_of_sole (h : Kind.Sole (kinds shapes) k) : shapes ≠ [] := by
  rintro rfl
  cases h.mem

/-! ## Well-formed shapes -/

theorem Formed.eq_null (h : s.Formed) (hk : s.kind = .null) : s = Shape.null := by
  cases h with
  | null => rfl
  | scalar hs => simp only at hk; subst hk; cases hs
  | array => cases hk
  | object => cases hk

theorem Formed.eq_scalar (h : s.Formed) (hk : s.kind.isScalar = true) :
    s = { kind := s.kind, nullable := s.nullable } := by
  cases h with
  | scalar => rfl
  | null | array | object => cases hk

theorem Formed.eq_array (h : s.Formed) (hk : s.kind = .array) :
    ∃ items nullable, items.Formed ∧ s = { kind := .array, items := some items, nullable } := by
  cases h with
  | array hi => exact ⟨_, _, hi, rfl⟩
  | scalar hs => simp only at hk; subst hk; cases hs
  | null | object => cases hk

theorem Formed.eq_object (h : s.Formed) (hk : s.kind = .object) :
    s = { kind := .object, properties := some s.fields, required := s.required,
          nullable := s.nullable } := by
  cases h with
  | object => rfl
  | scalar hs => simp only at hk; subst hk; cases hs
  | null | array => cases hk

theorem Formed.child (h : s.Formed) (ht : s.child step = some t) : t.Formed := by
  cases h with
  | null => cases step <;> cases ht
  | scalar => cases step <;> cases ht
  | array hi =>
    cases step with
    | property => cases ht
    | elements => cases ht; exact hi
  | object hd hf hn =>
    cases step with
    | property name => exact hf _ (Entries.mem_of_get? ht)
    | elements => cases ht

theorem Formed.children (h : ∀ s ∈ shapes, s.Formed) : ∀ t ∈ children shapes step, t.Formed := by
  intro t ht
  obtain ⟨s, hs, hst⟩ := List.mem_filterMap.1 ht
  exact (h s hs).child hst

theorem Formed.nodup_names (h : s.Formed) : (Entries.names s.fields).Nodup := by
  cases h with
  | null => exact List.nodup_nil
  | scalar => exact List.nodup_nil
  | array => exact List.nodup_nil
  | object hd => exact hd

/-- A required name is one of the properties. -/
theorem Formed.mem_of_requires (h : s.Formed) {name : Text} (hr : s.requires name = true) :
    name ∈ Entries.names s.fields := by
  cases h with
  | null => cases hr
  | scalar => cases hr
  | array => cases hr
  | object hd hf hn => exact hn name (Labels.mem_ofNames?.1 hr)

/-- The set of required names is determined by which properties are required. -/
theorem Formed.required_eq (h : s.Formed) :
    s.required = Labels.ofNames? ((Entries.names s.fields).filter s.requires) := by
  cases h with
  | null => rfl
  | scalar => rfl
  | array => rfl
  | object hd hf hn =>
    refine Labels.ofNames?_congr fun t => ?_
    rw [List.mem_filter]
    exact ⟨fun ht => ⟨hn t ht, Labels.mem_ofNames?.2 ht⟩, fun ht => Labels.mem_ofNames?.1 ht.2⟩

/-- Only objects have properties and only arrays have elements. -/
theorem Formed.kind_of_child (h : s.Formed) (ht : s.child step = some t) :
    s.kind = step.kind := by
  cases h with
  | null => cases step <;> cases ht
  | scalar => cases step <;> cases ht
  | array => cases step <;> first | rfl | cases ht
  | object => cases step <;> first | rfl | cases ht

theorem Formed.exists_items (h : s.Formed) (hk : s.kind = .array) : ∃ t, s.items = some t := by
  cases h with
  | array hi => exact ⟨_, rfl⟩
  | scalar hs => simp only at hk; subst hk; cases hs
  | null => cases hk
  | object => cases hk

/-! ## What merging gives -/

theorem merge_singleton (s : Shape) : merge [s] = s := by rw [merge]

theorem merge_nil : merge [] = null := by
  rw [merge]
  · rfl
  · intro s h; cases h

theorem mergeAll_of_ne_nil (h : shapes ≠ []) : mergeAll shapes = .ok (merge shapes) := by
  rw [mergeAll, if_neg (by simpa using h)]

theorem mem_solid : s ∈ solid shapes ↔ s ∈ shapes ∧ s.kind ≠ .null := by
  simp [solid]

theorem seesNull_eq (shapes : List Shape) :
    seesNull shapes =
      (decide ((solid shapes).length < shapes.length) || (solid shapes).any (·.nullable)) := by
  have hlen : (solid shapes).length < shapes.length ↔ ∃ s ∈ shapes, s.kind = .null := by
    simp [solid, List.length_filter_lt_length_iff_exists]
  rw [Bool.eq_iff_iff]
  simp only [seesNull, List.any_eq_true, Bool.or_eq_true, decide_eq_true_eq, hlen, mem_solid]
  constructor
  · rintro ⟨s, hs, hk | hn⟩
    · exact .inl ⟨s, hs, hk⟩
    · by_cases hk : s.kind = .null
      · exact .inl ⟨s, hs, hk⟩
      · exact .inr ⟨s, ⟨hs, hk⟩, hn⟩
  · rintro (⟨s, hs, hk⟩ | ⟨s, ⟨hs, -⟩, hn⟩)
    · exact ⟨s, hs, .inl hk⟩
    · exact ⟨s, hs, .inr hn⟩

/-- The nulls among well-formed shapes have nothing below them. -/
theorem children_solid (h : ∀ s ∈ shapes, s.Formed) :
    children (solid shapes) step = children shapes step := by
  unfold children solid
  rw [List.filterMap_filter]
  refine List.filterMap_congr fun s hs => ?_
  by_cases hk : s.kind = .null
  · rw [(h s hs).eq_null hk]
    cases step <;> rfl
  · simp [hk]

theorem names_solid (h : ∀ s ∈ shapes, s.Formed) : namesOf (solid shapes) = namesOf shapes := by
  unfold namesOf
  congr 1
  induction shapes with
  | nil => rfl
  | cons s rest ih =>
    have ih := ih fun t ht => h t (List.mem_cons_of_mem _ ht)
    unfold solid at ih ⊢
    rw [List.filter_cons, List.flatMap_cons, ← ih]
    by_cases hk : s.kind = .null
    · rw [(h s List.mem_cons_self).eq_null hk]
      rfl
    · simp [hk]

theorem mem_namesOf {name : Text} :
    name ∈ namesOf shapes ↔ ∃ s ∈ shapes, name ∈ Entries.names s.fields := by
  simp [namesOf]

theorem nodup_namesOf (shapes : List Shape) : (namesOf shapes).Nodup := nodup_eraseDups _

/-- Nulls alone merge to null. -/
theorem merge_void (hf : ∀ s ∈ shapes, s.Formed) (h : Kind.Void (kinds shapes)) :
    merge shapes = null := by
  have hsolid : solid shapes = [] := by
    rw [List.eq_nil_iff_forall_not_mem]
    intro s hs
    exact (mem_solid.1 hs).2 (h _ (mem_kinds (mem_solid.1 hs).1))
  by_cases h1 : ∃ s, shapes = [s]
  · obtain ⟨s, rfl⟩ := h1
    rw [merge_singleton]
    exact (hf s (by simp)).eq_null (h _ (by simp [kinds]))
  · rw [merge.eq_2 _ fun s hs => h1 ⟨s, hs⟩]
    split
    · rfl
    · next hs => rw [hsolid] at hs; cases hs

/-- Several kinds merge to the ambiguous shape. -/
theorem merge_mixed (h : Kind.Mixed (kinds shapes)) : merge shapes = ambiguous := by
  obtain ⟨i, hi, j, hj, hi0, hj0, hij⟩ := h
  obtain ⟨s, hs, rfl⟩ := List.mem_map.1 hi
  obtain ⟨t, ht, rfl⟩ := List.mem_map.1 hj
  have hs' := mem_solid.2 ⟨hs, hi0⟩
  have ht' := mem_solid.2 ⟨ht, hj0⟩
  rw [merge.eq_2]
  · split
    · next h0 => rw [h0] at hs'; cases hs'
    · next first others h0 =>
      rw [h0] at hs' ht'
      -- two kinds cannot both be that of the first shape
      have hother : ∃ u ∈ others, u.kind ≠ first.kind := by
        rcases List.mem_cons.1 hs' with rfl | hs'
        · rcases List.mem_cons.1 ht' with rfl | ht'
          · exact absurd rfl hij
          · exact ⟨t, ht', hij.symm⟩
        · by_cases hsf : s.kind = first.kind
          · rcases List.mem_cons.1 ht' with rfl | ht'
            · exact absurd hsf hij
            · exact ⟨t, ht', fun e => hij (hsf.trans e.symm)⟩
          · exact ⟨s, hs', hsf⟩
      rw [if_pos (by simpa using hother)]
  · rintro u rfl
    rw [List.mem_singleton] at hs ht
    exact hij (by rw [hs, ht])

/-- A name is required of a cover when every shape but the nulls requires it. -/
theorem allRequire_solid (hf : ∀ s ∈ shapes, s.Formed) {name : Text} :
    allRequire (solid shapes) name = true ↔
      ∀ s ∈ shapes, s.kind ≠ .null → s.requires name = true := by
  simp only [allRequire, List.all_eq_true, mem_solid, Bool.and_eq_true, and_imp]
  refine forall₂_congr fun s hs => imp_congr_right fun _ => ?_
  exact ⟨And.right, fun h => ⟨Entries.has_iff.2 ((hf s hs).mem_of_requires h), h⟩⟩

theorem namesOf_singleton (hf : s.Formed) : namesOf [s] = Entries.names s.fields := by
  simpa [namesOf] using eraseDups_of_nodup hf.nodup_names

theorem merge_children_singleton (hf : s.Formed) :
    (Entries.names s.fields).map (fun name => (name, merge (children [s] (.property name)))) =
      s.fields := by
  rw [Entries.names, List.map_map]
  refine (List.map_congr_left fun f hm => ?_).trans (List.map_id _)
  have hget : Entries.get? s.fields f.1 = some f.2 :=
    (Entries.get?_eq_some_iff hf.nodup_names).2 hm
  simp [children, child, hget, merge_singleton]

theorem cover_of_scalar (hk : k.isScalar = true) (shapes : List Shape) :
    cover k shapes = { kind := k, nullable := seesNull shapes } := by
  cases k <;> first | rfl | cases hk

/-- The rule for several shapes leaves a single one as it is. -/
theorem cover_singleton (hf : s.Formed) (hk : s.kind ≠ .null) : cover s.kind [s] = s := by
  have hsees : seesNull [s] = s.nullable := by simp [seesNull, hk]
  have hnames := namesOf_singleton hf
  have hfields := merge_children_singleton hf
  have hset : Labels.ofNames? ((Entries.names s.fields).filter (allRequire (solid [s]))) =
      s.required := by
    rw [hf.required_eq]
    refine congrArg _ (List.filter_congr fun name _ => ?_)
    rw [Bool.eq_iff_iff, allRequire_solid (by simpa using hf)]
    simp [hk]
  cases hf with
  | null => exact absurd rfl hk
  | scalar hs => rw [cover_of_scalar hs, hsees]
  | array hi =>
    simp only [cover, hsees, children, List.filterMap_cons, Shape.child, List.filterMap_nil,
      merge_singleton]
  | @object fields names nullable hd hfs hn =>
    simp only [cover, hsees, hnames, hfields, hset]
    rfl

/-- **One kind besides null merges to the cover of that kind.** -/
theorem merge_sole (hf : ∀ s ∈ shapes, s.Formed) (h : Kind.Sole (kinds shapes) k) :
    merge shapes = cover k shapes := by
  by_cases h1 : ∃ s, shapes = [s]
  · obtain ⟨s, rfl⟩ := h1
    have hk : k = s.kind := by simpa [kinds] using h.mem
    subst hk
    rw [merge_singleton, cover_singleton (hf s (by simp)) h.ne_null]
  -- what is left is the rule for several shapes, which looks at those that are not null
  have hall : ∀ s ∈ solid shapes, s.kind = k := by
    intro s hs
    obtain ⟨hmem, h0⟩ := mem_solid.1 hs
    exact h.only _ (mem_kinds hmem) h0
  rw [merge.eq_2 _ fun s hs => h1 ⟨s, hs⟩]
  split
  · next h0 =>
    obtain ⟨s, hs, hsk⟩ := List.mem_map.1 h.mem
    have := mem_solid.2 ⟨hs, fun e => h.ne_null (hsk ▸ e)⟩
    rw [h0] at this
    cases this
  · next first others h0 =>
    have hfirst : first.kind = k := hall first (h0 ▸ List.mem_cons_self)
    have hothers : ¬ (others.any fun s => decide (s.kind ≠ first.kind)) = true := by
      simp only [List.any_eq_true, decide_eq_true_eq, not_exists, not_and, not_not, hfirst]
      exact fun s hs => hall s (h0 ▸ List.mem_cons_of_mem _ hs)
    have hsees : (decide (others.length + 1 < shapes.length) ||
        (first :: others).any (·.nullable)) = seesNull shapes := by
      rw [seesNull_eq, h0, List.length_cons]
    have hobserved : ∀ name, observed (first :: others) name = children shapes (.property name) :=
      fun name => by rw [← children_solid hf, h0]; rfl
    have hitems : (first :: others).filterMap (·.items) = children shapes .elements := by
      rw [← children_solid hf, h0]; rfl
    have hnames : namesOf (first :: others) = namesOf shapes := by rw [← names_solid hf, h0]
    have hreq : allRequire (first :: others) = allRequire (solid shapes) := by rw [h0]
    rw [if_neg hothers, hfirst]
    simp only [hsees, hobserved, hitems, hnames, hreq]
    cases k <;> rfl

/-! ## Well-formed results -/

/-- **Induction along children.** A property of lists of shapes holds of all lists when it holds
of every list of whose children it holds. -/
theorem children_induction {motive : List Shape → Prop}
    (below : ∀ shapes, (shapes ≠ [] → ∀ step, motive (children shapes step)) → motive shapes)
    (shapes : List Shape) : motive shapes := by
  induction hw : weights shapes using Nat.strong_induction_on generalizing shapes with
  | _ w ih =>
    subst hw
    refine below shapes fun hne step => ih _ ?_ _ rfl
    cases step with
    | property name => exact weight_observed_lt hne name
    | elements => exact weight_itemsOf_lt hne

theorem formed_cover (hk : k ≠ .null)
    (hc : ∀ step, (merge (children shapes step)).Formed) : (cover k shapes).Formed := by
  cases k with
  | null => exact absurd rfl hk
  | string | number | boolean => exact .scalar rfl
  | array => exact .array (hc .elements)
  | object =>
    refine .object ?_ ?_ ?_
    · rw [Entries.names_table]
      exact nodup_namesOf shapes
    · intro f hm
      obtain ⟨name, -, rfl⟩ := List.mem_map.1 hm
      exact hc (.property name)
    · intro name hn
      rw [Entries.names_table]
      exact (List.mem_filter.1 hn).1

theorem formed_ambiguous : ambiguous.Formed := .scalar rfl

/-- **Merging well-formed shapes gives a well-formed shape.** -/
theorem formed_merge (hf : ∀ s ∈ shapes, s.Formed) : (merge shapes).Formed := by
  induction shapes using children_induction with
  | below shapes ih =>
    rcases Kind.void_or_sole_or_mixed (kinds shapes) with hv | ⟨k, hk⟩ | hm
    · rw [merge_void hf hv]
      exact .null
    · rw [merge_sole hf hk]
      have hne := ne_nil_of_sole hk
      exact formed_cover hk.ne_null fun step => ih hne step (Formed.children hf)
    · rw [merge_mixed hm]
      exact formed_ambiguous

/-! ## Below a merged shape -/

/-- The merged shape of some shapes, if there are any. -/
def merge? (shapes : List Shape) : Option Shape :=
  if shapes.isEmpty then none else some (merge shapes)

theorem merge?_of_mem (h : s ∈ shapes) : merge? shapes = some (merge shapes) := by
  rw [merge?, if_neg (by simpa using List.ne_nil_of_mem h)]

theorem children_eq_nil_iff {name : Text} :
    children shapes (.property name) = [] ↔ name ∉ namesOf shapes := by
  simp only [children, List.filterMap_eq_nil_iff, child, Entries.get?_eq_none_iff, mem_namesOf,
    not_exists, not_and]

theorem children_eq_nil (hf : ∀ s ∈ shapes, s.Formed) (h : ∀ s ∈ shapes, s.kind ≠ step.kind) :
    children shapes step = [] := by
  rw [children, List.filterMap_eq_nil_iff]
  intro s hs
  cases ht : s.child step with
  | none => rfl
  | some t => exact absurd ((hf s hs).kind_of_child ht) (h s hs)

theorem children_of_void (hf : ∀ s ∈ shapes, s.Formed) (hv : Kind.Void (kinds shapes))
    (step : Step) : children shapes step = [] := by
  refine children_eq_nil hf fun s hs => ?_
  rw [hv _ (mem_kinds hs)]
  exact step.kind_ne_null.symm

/-- A step only leads somewhere below shapes of its kind. -/
theorem children_of_sole_ne (hf : ∀ s ∈ shapes, s.Formed) (hk : Kind.Sole (kinds shapes) k)
    (hne : k ≠ step.kind) : children shapes step = [] := by
  refine children_eq_nil hf fun s hs he => ?_
  have h0 : s.kind ≠ .null := he ▸ step.kind_ne_null
  exact hne ((hk.only _ (mem_kinds hs) h0).symm.trans he)

theorem child_cover_of_ne (hk : k ≠ step.kind) : (cover k shapes).child step = none := by
  cases step <;> cases k <;> first | rfl | exact absurd rfl hk

/-- **What lies one step below a merged shape is merged from what lies there**, unless several
kinds met and nothing was kept. -/
theorem child_merge (hf : ∀ s ∈ shapes, s.Formed) (hm : ¬ Kind.Mixed (kinds shapes)) (step : Step) :
    (merge shapes).child step = merge? (children shapes step) := by
  rcases Kind.void_or_sole_or_mixed (kinds shapes) with hv | ⟨k, hk⟩ | hm'
  · rw [merge_void hf hv, children_of_void hf hv]
    cases step <;> rfl
  · rw [merge_sole hf hk]
    by_cases hks : k = step.kind
    · subst hks
      cases step with
      | property name =>
        simp only [Step.kind, cover, child, fields, Option.getD_some, Entries.get?_table, merge?,
          List.isEmpty_iff, children_eq_nil_iff]
        by_cases hn : name ∈ namesOf shapes <;> simp [hn]
      | elements =>
        -- an array always says what its elements are, so there is something to merge
        have hne : children shapes .elements ≠ [] := by
          obtain ⟨s, hs, hsk⟩ := List.mem_map.1 hk.mem
          obtain ⟨t, ht⟩ := (hf s hs).exists_items hsk
          exact List.ne_nil_of_mem (List.mem_filterMap.2 ⟨s, hs, ht⟩)
        simp [Step.kind, cover, child, merge?, hne]
    · rw [child_cover_of_ne hks, children_of_sole_ne hf hk hks]
      rfl
  · exact absurd hm' hm

end Shape

end TypeSketch
