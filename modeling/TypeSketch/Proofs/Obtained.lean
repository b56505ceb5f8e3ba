import TypeSketch.Proofs.Failing
import TypeSketch.Proofs.Observed

/-!
# What every obtained shape is like

Shapes are obtained by inferring samples and by merging shapes that were obtained before, in any
order and any number of times.

* `Act`, `Act.perform`, `run`: a row of such steps. A step that fails obtains nothing.
* `Regular`: what every node of an obtained shape is like, kind by kind.
* `Firm`: what is required of an object is not null there, and nullable only if it is ambiguous.
* `sound_merge`: merging keeps shapes well formed and firm at every node.
* `sound_perform`, `sound_run`: one step keeps all shapes sound, and so does a row of them.
* `regular_run`: **every node of every obtained shape is regular.**
-/

namespace TypeSketch

namespace Value

/-- **What can be given to inference**: a value without a name twice in an object, whose leaves may
be of any type. -/
inductive Proper : Value → Prop
  | null : Proper .null
  | bool (b : Bool) : Proper (.bool b)
  | number (n : Numeral) : Proper (.number n)
  | string (t : Text) : Proper (.string t)
  | foreign (typeName : Text) : Proper (.foreign typeName)
  | array {elements : List Value} (h : ∀ v ∈ elements, Proper v) : Proper (.array elements)
  | object {members : List (Text × Value)} (hd : (Entries.names members).Nodup)
    (h : ∀ m ∈ members, Proper m.2) : Proper (.object members)

theorem IsJson.proper {v : Value} (h : v.IsJson) : v.Proper := by
  induction h with
  | null => exact .null
  | bool b => exact .bool b
  | number n => exact .number n
  | string t => exact .string t
  | array _ ih => exact .array ih
  | object hd _ ih => exact .object hd ih

end Value

namespace Shape

variable {s t : Shape} {shapes pool : List Shape} {step : Step} {v : Value} {limit : Option Int}

/-! ## Only JSON has a shape -/

theorem exists_of_inferElements {elements : List Value} {depth : Nat}
    (h : inferElements limit depth elements = .ok shapes) :
    ∀ v ∈ elements, ∃ s, inferAt limit depth v = .ok s := by
  induction elements generalizing shapes with
  | nil => simp
  | cons v rest ih =>
    rw [inferElements] at h
    obtain ⟨s, hs, h⟩ := exists_of_bind_ok h
    obtain ⟨ss, hss, -⟩ := exists_of_bind_ok h
    exact List.forall_mem_cons.2 ⟨⟨s, hs⟩, ih hss⟩

theorem exists_of_inferMembers {members : List (Text × Value)} {depth : Nat}
    {fields : List (Text × Shape)} (h : inferMembers limit depth members = .ok fields) :
    ∀ m ∈ members, ∃ s, inferAt limit depth m.2 = .ok s := by
  induction members generalizing fields with
  | nil => simp
  | cons m rest ih =>
    rw [inferMembers] at h
    obtain ⟨s, hs, h⟩ := exists_of_bind_ok h
    obtain ⟨fs, hfs, -⟩ := exists_of_bind_ok h
    exact List.forall_mem_cons.2 ⟨⟨s, hs⟩, ih hfs⟩

/-- A value that has a shape at some depth is JSON. -/
theorem isJson_of_inferAt (hv : v.Proper) {depth : Nat} (h : inferAt limit depth v = .ok s) :
    v.IsJson := by
  induction hv generalizing depth s with
  | null => exact .null
  | bool b => exact .bool b
  | number n => exact .number n
  | string t => exact .string t
  | foreign typeName =>
    rw [inferAt] at h
    · obtain ⟨_, -, h⟩ := exists_of_bind_ok h
      cases h
    all_goals simp
  | array _ ih =>
    rw [inferAt] at h
    obtain ⟨_, -, h⟩ := exists_of_bind_ok h
    obtain ⟨shapes, hshapes, -⟩ := exists_of_bind_ok h
    refine .array fun v hv => ?_
    obtain ⟨s, hs⟩ := exists_of_inferElements hshapes v hv
    exact ih v hv hs
  | object hd _ ih =>
    rw [inferAt] at h
    obtain ⟨_, -, h⟩ := exists_of_bind_ok h
    obtain ⟨fields, hfields, -⟩ := exists_of_bind_ok h
    refine .object hd fun m hm => ?_
    obtain ⟨s, hs⟩ := exists_of_inferMembers hfields m hm
    exact ih m hm hs

/-- Samples that have a shape in common are JSON. -/
theorem isJson_of_inferAll {samples : List Value} (hv : ∀ v ∈ samples, v.Proper)
    (h : inferAll limit samples = .ok s) : ∀ v ∈ samples, v.IsJson := by
  rw [inferAll, mapM_infer_eq] at h
  obtain ⟨shapes, hshapes, -⟩ := exists_of_bind_ok h
  intro v hmem
  obtain ⟨s, hs⟩ := exists_of_inferElements hshapes v hmem
  exact isJson_of_inferAt (hv v hmem) hs

/-- The shape of a value is that of JSON. -/
theorem eq_of_infer (hv : v.IsJson) (h : infer limit v = .ok s) : s = of v := by
  cases limit with
  | none =>
    rw [infer, inferAt_none] at h
    cases h
  | some limit =>
    rw [infer_eq hv] at h
    split at h
    · cases h
      rfl
    · cases h

/-! ## Firm shapes -/

/-- What is required of an object is not null there, and nullable only if several kinds met. -/
def Firm (s : Shape) : Prop :=
  ∀ name t, s.requires name = true → s.child (.property name) = some t →
    t.kind ≠ .null ∧ (t.nullable = true → t = ambiguous)

/-- **A sound shape**: one that is well formed, and firm at every node. -/
structure Sound (s : Shape) : Prop where
  formed : s.Formed
  firm : ∀ place t, s.at? place = some t → t.Firm

/-- A shape is sound when it is firm itself and sound below. -/
theorem Sound.of_children (hf : s.Formed) (h0 : s.Firm)
    (h : ∀ step t, s.child step = some t → t.Sound) : s.Sound := by
  refine ⟨hf, fun place t ht => ?_⟩
  cases place with
  | nil => cases ht; exact h0
  | cons step rest =>
    obtain ⟨u, hu, ht⟩ := Option.bind_eq_some_iff.1 ht
    exact (h step u hu).firm rest t ht

theorem Sound.child (h : s.Sound) (ht : s.child step = some t) : t.Sound :=
  ⟨h.formed.child ht, fun place u hu => h.firm (step :: place) u (by rw [at?, ht]; exact hu)⟩

theorem Sound.property (h : s.Sound) {f : Text × Shape} (hf : f ∈ s.fields) : f.2.Sound :=
  have hget : s.child (.property f.1) = some f.2 :=
    (Entries.get?_eq_some_iff h.formed.nodup_names).2 hf
  h.child hget

theorem Sound.items (h : s.Sound) (hi : s.items = some t) : t.Sound :=
  have hget : s.child .elements = some t := hi
  h.child hget

theorem Sound.root_firm (h : s.Sound) : s.Firm := h.firm [] s rfl

theorem Sound.at (h : s.Sound) {place : List Step} (ht : s.at? place = some t) : t.Sound := by
  induction place generalizing s with
  | nil => cases ht; exact h
  | cons step rest ih =>
    obtain ⟨u, hu, ht⟩ := Option.bind_eq_some_iff.1 ht
    exact ih (h.child hu) ht

theorem firm_of_kind_ne (hf : s.Formed) (hk : s.kind ≠ .object) : s.Firm :=
  fun _ _ _ ht => absurd (hf.kind_of_child ht) hk

/-- Shapes that are not null, and nullable only if ambiguous, merge to such a shape. -/
theorem merge_firm_children (hf : ∀ s ∈ shapes, s.Formed) (hne : shapes ≠ [])
    (h : ∀ s ∈ shapes, s.kind ≠ .null ∧ (s.nullable = true → s = ambiguous)) :
    (merge shapes).kind ≠ .null ∧ ((merge shapes).nullable = true → merge shapes = ambiguous) := by
  rcases Kind.void_or_sole_or_mixed (kinds shapes) with hv | ⟨k, hk⟩ | hm
  · obtain ⟨s, hs⟩ := List.exists_mem_of_ne_nil shapes hne
    exact absurd (hv _ (mem_kinds hs)) (h s hs).1
  · have hmerge := merge_sole hf hk
    refine ⟨by rw [hmerge, kind_cover]; exact hk.ne_null, fun hn => ?_⟩
    rw [hmerge, nullable_cover] at hn
    -- a null that was seen was seen in an ambiguous shape, which leaves nothing else
    obtain ⟨s, hs, hnull⟩ := List.any_eq_true.1 hn
    have hnull : s.nullable = true := by simpa [(h s hs).1] using hnull
    exact merge_of_mem_ambiguous hf ((h s hs).2 hnull ▸ hs)
  · rw [merge_mixed hm]
    exact ⟨Kind.noConfusion, fun _ => rfl⟩

/-- What merged objects require, each of them required. -/
theorem firm_merge (hf : ∀ s ∈ shapes, s.Formed) (h : ∀ s ∈ shapes, s.Firm) :
    (merge shapes).Firm := by
  intro name t hr ht
  rcases Kind.void_or_sole_or_mixed (kinds shapes) with hv | ⟨k, hk⟩ | hm
  · rw [merge_void hf hv] at hr
    cases hr
  · rw [requires_merge hf hk, allRequire_solid hf] at hr
    rw [child_merge hf hk.not_mixed, merge?] at ht
    split at ht
    · cases ht
    next hne =>
    cases ht
    refine merge_firm_children (Formed.children hf) (by simpa using hne) fun u hu => ?_
    obtain ⟨s, hs, hsu⟩ := List.mem_filterMap.1 hu
    have hobject : s.kind = .object := (hf s hs).kind_of_child hsu
    exact h s hs name u (hr s hs (hobject ▸ Kind.noConfusion)) hsu
  · rw [merge_mixed hm] at hr
    cases hr

/-- **Merging sound shapes gives a sound shape.** -/
theorem sound_merge (h : ∀ s ∈ shapes, s.Sound) : (merge shapes).Sound := by
  induction shapes using children_induction with
  | below shapes ih =>
    have hf : ∀ s ∈ shapes, s.Formed := fun s hs => (h s hs).formed
    have hfirm := firm_merge hf fun s hs => (h s hs).root_firm
    refine .of_children (formed_merge hf) hfirm fun step t ht => ?_
    by_cases hm : Kind.Mixed (kinds shapes)
    · -- the ambiguous shape has nothing below it
      rw [merge_mixed hm] at ht
      cases step <;> cases ht
    -- what is below the merged shape was merged from what is below the shapes
    rw [child_merge hf hm, merge?] at ht
    split at ht
    · cases ht
    next hne =>
    cases ht
    have hne : shapes ≠ [] := by
      rintro rfl
      exact hne rfl
    refine ih hne step fun u hu => ?_
    obtain ⟨s, hs, hsu⟩ := List.mem_filterMap.1 hu
    exact (h s hs).child hsu

/-- **The shape of a sample is sound.** -/
theorem sound_of (hv : v.IsJson) : (of v).Sound := by
  induction hv with
  | null | bool | number | string =>
    refine .of_children (formed_of (by constructor))
      (firm_of_kind_ne (formed_of (by constructor)) Kind.noConfusion) fun step t ht => ?_
    cases step <;> cases ht
  | @array elements hj ih =>
    have hf := formed_of (.array hj)
    refine .of_children hf (firm_of_kind_ne hf Kind.noConfusion) fun step t ht => ?_
    cases step with
    | property name => cases ht
    | elements =>
      rw [Shape.child, items_of_array] at ht
      cases ht
      exact sound_merge (List.forall_mem_map.2 ih)
  | @object members hd hj ih =>
    refine .of_children (formed_of (.object hd hj)) (fun name t hr ht => ?_) fun step t ht => ?_
    · -- an object requires the members that are not null, and no shape of a value is nullable
      obtain ⟨w, hw, hnull⟩ := (requires_of_object hd).1 hr
      rw [Shape.child, fields_of_object, Entries.get?_map, hw] at ht
      cases ht
      have hwj := hj _ (Entries.mem_of_get? hw)
      rw [kind_of, nullable_of]
      exact ⟨fun hk => by simp [hwj.isNull_iff.2 hk] at hnull, Bool.noConfusion⟩
    · cases step with
      | elements => cases ht
      | property name =>
        rw [Shape.child, fields_of_object, Entries.get?_map] at ht
        obtain ⟨w, hw, rfl⟩ := Option.map_eq_some_iff.1 ht
        exact ih _ (Entries.mem_of_get? hw)

/-! ## Rows of steps -/

/-- A step in obtaining shapes. -/
inductive Act where
  | infer (limit : Option Int) (v : Value)
  | inferAll (limit : Option Int) (samples : List Value)
  /-- Merging some of the shapes obtained so far, which are known by their numbers. -/
  | merge (picks : List Nat)

namespace Act

/-- The shape that a step obtains, given those obtained before. -/
def perform (pool : List Shape) : Act → Except Fault Shape
  | infer limit v => Shape.infer limit v
  | inferAll limit samples => Shape.inferAll limit samples
  | merge picks => mergeAll (picks.filterMap (pool[·]?))

/-- Whether no object that a step is given has a name twice. -/
def Proper : Act → Prop
  | infer _ v => v.Proper
  | inferAll _ samples => ∀ v ∈ samples, v.Proper
  | merge _ => True

end Act

/-- The shapes obtained by some steps in a row, together with those there were before. A step that
fails obtains nothing. -/
def run (pool : List Shape) : List Act → List Shape
  | [] => pool
  | act :: rest =>
    match act.perform pool with
    | .ok s => run (pool ++ [s]) rest
    | .error _ => run pool rest

/-- **One step keeps shapes sound.** -/
theorem sound_perform {act : Act} (hp : ∀ s ∈ pool, s.Sound) (ha : act.Proper)
    (h : act.perform pool = .ok s) : s.Sound := by
  cases act with
  | infer limit v =>
    have hj := isJson_of_inferAt ha h
    rw [eq_of_infer hj h]
    exact sound_of hj
  | inferAll limit samples =>
    have hj := isJson_of_inferAll ha h
    rw [eq_of_inferAll hj h]
    exact sound_merge (List.forall_mem_map.2 fun v hv => sound_of (hj v hv))
  | merge picks =>
    rw [Act.perform, mergeAll] at h
    split at h
    · cases h
    · cases h
      refine sound_merge fun s hs => ?_
      obtain ⟨i, -, hi⟩ := List.mem_filterMap.1 hs
      exact hp s (List.mem_of_getElem? hi)

/-- **A row of steps keeps shapes sound.** -/
theorem sound_run {acts : List Act} (hp : ∀ s ∈ pool, s.Sound) (ha : ∀ act ∈ acts, act.Proper) :
    ∀ s ∈ run pool acts, s.Sound := by
  induction acts generalizing pool with
  | nil => exact hp
  | cons act rest ih =>
    rw [List.forall_mem_cons] at ha
    rw [run]
    cases h : act.perform pool with
    | error e => exact ih hp ha.2
    | ok s =>
      refine ih (List.forall_mem_append.2 ⟨hp, List.forall_mem_singleton.2 ?_⟩) ha.2
      exact sound_perform hp ha.1 h

/-! ## Regular nodes -/

/-- **What a node of an obtained shape is like.** -/
structure Regular (s : Shape) : Prop where
  /-- An object lists its properties, each name once; the set of required names is missing, or it
  is not empty and consists of such names. -/
  object : s.kind = .object → s.items = none ∧
    ∃ fields, s.properties = some fields ∧ (Entries.names fields).Nodup ∧
      (s.required = none ∨ ∃ names : List Text, names ≠ [] ∧
        (∀ name ∈ names, name ∈ Entries.names fields) ∧
        s.required = some (Labels.ofList (names.map .name)))
  /-- An array says what its elements are and nothing else. -/
  array : s.kind = .array → (∃ t, s.items = some t) ∧ s.properties = none ∧ s.required = none
  /-- Other kinds have nothing below them. -/
  leaf : s.kind ≠ .object → s.kind ≠ .array →
    s.properties = none ∧ s.required = none ∧ s.items = none
  /-- The shape of null is not marked nullable. -/
  null : s.kind = .null → s.nullable = false
  /-- A required property is there and not null, and nullable only if it is ambiguous. -/
  required : ∀ name, s.requires name = true → ∃ t, s.child (.property name) = some t ∧
    t.kind ≠ .null ∧ (t.nullable = true → t = ambiguous)

theorem Sound.regular (h : s.Sound) : s.Regular := by
  have hreq : ∀ name, s.requires name = true → ∃ t, s.child (.property name) = some t ∧
      t.kind ≠ .null ∧ (t.nullable = true → t = ambiguous) := by
    intro name hr
    obtain ⟨t, ht⟩ := Entries.exists_get?_of_mem (h.formed.mem_of_requires hr)
    exact ⟨t, ht, h.root_firm name t hr ht⟩
  cases h.formed with
  | null =>
    exact ⟨nofun, nofun, fun _ _ => ⟨rfl, rfl, rfl⟩, fun _ => rfl, hreq⟩
  | scalar hk =>
    refine ⟨?_, ?_, fun _ _ => ⟨rfl, rfl, rfl⟩, ?_, hreq⟩
    all_goals
      rintro rfl
      cases hk
  | array hi =>
    exact ⟨nofun, fun _ => ⟨⟨_, rfl⟩, rfl, rfl⟩, fun _ hk => absurd rfl hk, nofun, hreq⟩
  | @object fields names nullable hd hf hn =>
    refine ⟨fun _ => ⟨rfl, fields, rfl, hd, ?_⟩, nofun, fun hk => absurd rfl hk, nofun, hreq⟩
    by_cases hne : names = []
    · exact .inl (by rw [hne]; rfl)
    · exact .inr ⟨names, hne, hn, Labels.ofNames?_of_ne_nil hne⟩

/-- **Every node of every obtained shape is regular**, whatever was inferred and merged, in whatever
order, to obtain it. -/
theorem regular_run {acts : List Act} (ha : ∀ act ∈ acts, act.Proper) {s : Shape}
    (hs : s ∈ run [] acts) {place : List Step} {t : Shape} (ht : s.at? place = some t) :
    t.Regular :=
  ((sound_run (by simp) ha s hs).at ht).regular

/-- Three samples inferred on their own and in common, a value that is no JSON, and two merges, the
second one of what the first gave. -/
def mixedActs : List Act :=
  [.infer (some 9) (.object [("a", .int 1), ("b", .null)]),
   .infer (some 9) (.foreign "bytes"),
   .inferAll (some 9) [.object [("a", .string "x")], .null],
   .merge [0, 1],
   .merge [2, 0, 2]]

theorem regular_mixedActs :
    ∃ s t, (run [] mixedActs)[3]? = some s ∧ s.at? [.property "a"] = some t ∧ t.Regular := by
  have hplace : ((run [] mixedActs)[3]?.bind fun s => s.at? [.property "a"]).isSome = true := by
    decide +kernel
  obtain ⟨t, ht⟩ := Option.isSome_iff_exists.1 hplace
  obtain ⟨s, hs, ht⟩ := Option.bind_eq_some_iff.1 ht
  refine ⟨s, t, hs, ht, regular_run (fun act hact => ?_) (List.mem_of_getElem? hs) ht⟩
  simp only [mixedActs, List.mem_cons, List.not_mem_nil, or_false] at hact
  rcases hact with rfl | rfl | rfl | rfl | rfl
  · exact Value.IsJson.proper (by decide)
  · exact .foreign _
  · have hj : ∀ v ∈ [Value.object [("a", .string "x")], .null], v.IsJson := by decide
    exact fun v hv => (hj v hv).proper
  all_goals exact trivial

end Shape

end TypeSketch
