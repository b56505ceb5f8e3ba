import TypeSketch.Proofs.Sample

/-!
# Merging and equality of shapes

Two shapes are the same when they differ at most in the order of properties. What is merged only
counts up to that: neither the order of the shapes nor how often one occurs makes a difference.

* `Within`: every shape of one list is the same as one of another.
* `child_of_same`, `children_within`: below same shapes lie same shapes.
* `cover_same`: two covers are the same when their nulls, names, requirements and parts are.
* `merge_same`, `mergeAll_same`: **two lists of the same shapes merge to the same shape.**
-/

namespace TypeSketch

namespace Kind

variable {js ks : List Kind} {k : Kind}

theorem Void.congr (h : ∀ k, k ∈ js ↔ k ∈ ks) (hv : Void js) : Void ks :=
  fun k hk => hv k ((h k).2 hk)

theorem Sole.congr (h : ∀ k, k ∈ js ↔ k ∈ ks) (hk : Sole js k) : Sole ks k :=
  ⟨hk.ne_null, (h k).1 hk.mem, fun j hj => hk.only j ((h j).2 hj)⟩

theorem Mixed.congr (h : ∀ k, k ∈ js ↔ k ∈ ks) (hm : Mixed js) : Mixed ks := by
  obtain ⟨i, hi, j, hj, hij⟩ := hm
  exact ⟨i, (h i).1 hi, j, (h j).1 hj, hij⟩

end Kind

namespace Shape

variable {s t s' : Shape} {ss ts : List Shape} {step : Step} {k : Kind}

/-! ## Below same shapes -/

theorem same_iff :
    s.same t = true ↔ s.kind = t.kind ∧ s.required = t.required ∧ s.nullable = t.nullable ∧
      sameProperties s.properties t.properties = true ∧ sameItems s.items t.items = true := by
  cases s
  simp only [same, Bool.and_eq_true, decide_eq_true_eq, and_assoc]

theorem null_same : null.same null = true := by simp [same_iff, null, sameProperties, sameItems]

theorem ambiguous_same : ambiguous.same ambiguous = true := by
  simp [same_iff, ambiguous, sameProperties, sameItems]

theorem sameFields_iff {fs gs : List (Text × Shape)} :
    sameFields fs gs = true ↔ ∀ f ∈ fs, ∃ t, Entries.get? gs f.1 = some t ∧ f.2.same t = true := by
  induction fs with
  | nil => simp [sameFields]
  | cons f rest ih =>
    rw [sameFields, Bool.and_eq_true, ih, List.forall_mem_cons]
    cases Entries.get? gs f.1 <;> simp

/-- Same shapes have same shapes below. -/
theorem child_of_same (h : s.same t = true) (hs : s.child step = some s') :
    ∃ t', t.child step = some t' ∧ s'.same t' = true := by
  obtain ⟨-, -, -, hp, hi⟩ := same_iff.1 h
  cases step with
  | property name =>
    cases hsp : s.properties with
    | none => simp [child, fields, hsp] at hs
    | some fs =>
      cases htp : t.properties with
      | none => simp [hsp, htp, sameProperties] at hp
      | some gs =>
        rw [hsp, htp, sameProperties, Bool.and_eq_true] at hp
        simp only [child, fields, hsp, htp, Option.getD_some] at hs ⊢
        exact sameFields_iff.1 hp.2 _ (Entries.mem_of_get? hs)
  | elements =>
    simp only [child] at hs ⊢
    rw [hs] at hi
    cases hti : t.items with
    | none => simp [hti, sameItems] at hi
    | some t' =>
      rw [hti, sameItems] at hi
      exact ⟨t', rfl, hi⟩

/-! ## Lists of same shapes -/

/-- Every shape of a list is the same as one of another. -/
def Within (ss ts : List Shape) : Prop := ∀ s ∈ ss, ∃ t ∈ ts, s.same t = true

theorem children_within (h : Within ss ts) : Within (children ss step) (children ts step) := by
  intro s' hs'
  obtain ⟨s, hs, hchild⟩ := List.mem_filterMap.1 hs'
  obtain ⟨t, ht, hst⟩ := h s hs
  obtain ⟨t', hchild', hst'⟩ := child_of_same hst hchild
  exact ⟨t', List.mem_filterMap.2 ⟨t, ht, hchild'⟩, hst'⟩

theorem Within.kinds (h : Within ss ts) (hk : k ∈ kinds ss) : k ∈ Shape.kinds ts := by
  obtain ⟨s, hs, rfl⟩ := List.mem_map.1 hk
  obtain ⟨t, ht, hst⟩ := h s hs
  exact (same_iff.1 hst).1 ▸ mem_kinds ht

theorem Within.seesNull (h : Within ss ts) (hs : seesNull ss = true) :
    Shape.seesNull ts = true := by
  obtain ⟨s, hs, hnull⟩ := List.any_eq_true.1 hs
  obtain ⟨t, ht, hst⟩ := h s hs
  obtain ⟨hk, -, hn, -⟩ := same_iff.1 hst
  exact List.any_eq_true.2 ⟨t, ht, hk ▸ hn ▸ hnull⟩

theorem Within.namesOf (h : Within ss ts) {name : Text} (hn : name ∈ namesOf ss) :
    name ∈ Shape.namesOf ts := by
  obtain ⟨s, hs, hns⟩ := mem_namesOf.1 hn
  obtain ⟨t, ht, hst⟩ := h s hs
  obtain ⟨s', hs'⟩ := Entries.exists_get?_of_mem hns
  have hchild : s.child (.property name) = some s' := hs'
  obtain ⟨t', ht', -⟩ := child_of_same hst hchild
  exact mem_namesOf.2 ⟨t, ht, Entries.mem_names_of_get? ht'⟩

/-- What all shapes of a list require, all shapes of a list within it require. -/
theorem Within.allRequire (h : Within ts ss) (hfs : ∀ s ∈ ss, s.Formed) (hft : ∀ t ∈ ts, t.Formed)
    {name : Text} (hr : allRequire (solid ss) name = true) :
    Shape.allRequire (solid ts) name = true := by
  rw [allRequire_solid hft]
  intro t ht h0
  obtain ⟨s, hs, hts⟩ := h t ht
  obtain ⟨hk, hreq, -⟩ := same_iff.1 hts
  have := (allRequire_solid hfs).1 hr s hs (hk ▸ h0)
  rwa [requires, hreq]

/-! ## Same results -/

/-- Two covers are the same when all that they are made of is. -/
theorem cover_same (hsees : seesNull ss = seesNull ts)
    (hnames : ∀ name, name ∈ namesOf ss ↔ name ∈ namesOf ts)
    (hreq : ∀ name, allRequire (solid ss) name = allRequire (solid ts) name)
    (hbelow : ∀ step, (merge (children ss step)).same (merge (children ts step)) = true) :
    (cover k ss).same (cover k ts) = true := by
  rw [same_iff]
  cases k with
  | null | string | number | boolean => simp [cover, sameProperties, sameItems, hsees]
  | array => simp [cover, sameProperties, sameItems, hsees, hbelow]
  | object =>
    have hreq' : allRequire (solid ss) = allRequire (solid ts) := funext hreq
    refine ⟨rfl, Labels.ofNames?_congr fun t => ?_, hsees, ?_, by simp [cover, sameItems]⟩
    · rw [List.mem_filter, List.mem_filter, hnames, hreq']
    -- the names come in two orders, but each of them once
    have hperm : (namesOf ss).Perm (namesOf ts) :=
      (List.perm_ext_iff_of_nodup (nodup_namesOf ss) (nodup_namesOf ts)).2 hnames
    rw [cover, cover, sameProperties, Bool.and_eq_true, decide_eq_true_eq, List.length_map,
      List.length_map, sameFields_iff]
    refine ⟨hperm.length_eq, fun f hf => ?_⟩
    obtain ⟨name, hn, rfl⟩ := List.mem_map.1 hf
    refine ⟨_, ?_, hbelow (.property name)⟩
    rw [Entries.get?_table, if_pos ((hnames name).1 hn)]

/-- **Two lists of the same shapes merge to the same shape.** -/
theorem merge_same (hfs : ∀ s ∈ ss, s.Formed) (hft : ∀ t ∈ ts, t.Formed) (hst : Within ss ts)
    (hts : Within ts ss) : (merge ss).same (merge ts) = true := by
  induction ss using children_induction generalizing ts with
  | below ss ih =>
    have hkinds : ∀ k, k ∈ kinds ss ↔ k ∈ kinds ts := fun k => ⟨hst.kinds, hts.kinds⟩
    rcases Kind.void_or_sole_or_mixed (kinds ss) with hv | ⟨k, hk⟩ | hm
    · rw [merge_void hfs hv, merge_void hft (hv.congr hkinds), null_same]
    · rw [merge_sole hfs hk, merge_sole hft (hk.congr hkinds)]
      refine cover_same (Bool.eq_iff_iff.2 ⟨hst.seesNull, hts.seesNull⟩)
        (fun name => ⟨hst.namesOf, hts.namesOf⟩)
        (fun name => Bool.eq_iff_iff.2 ⟨hts.allRequire hfs hft, hst.allRequire hft hfs⟩)
        fun step => ?_
      have hne := ne_nil_of_sole hk
      exact ih hne step (Formed.children hfs) (Formed.children hft) (children_within hst)
        (children_within hts)
    · rw [merge_mixed hm, merge_mixed (hm.congr hkinds), ambiguous_same]

/-- **The merged shape only depends on which shapes were merged**: of two non-empty lists of
well-formed shapes, every member of each the same as a member of the other, both merge, and to the
same shape. -/
theorem mergeAll_same (hs : ss ≠ []) (ht : ts ≠ []) (hfs : ∀ s ∈ ss, s.Formed)
    (hft : ∀ t ∈ ts, t.Formed) (hst : ∀ s ∈ ss, ∃ t ∈ ts, s.same t = true)
    (hts : ∀ t ∈ ts, ∃ s ∈ ss, t.same s = true) :
    ∃ s t, mergeAll ss = .ok s ∧ mergeAll ts = .ok t ∧ s.same t = true :=
  ⟨merge ss, merge ts, mergeAll_of_ne_nil hs, mergeAll_of_ne_nil ht, merge_same hfs hft hst hts⟩

/-- An object in an object. -/
def nestedSample : Value :=
  .object [("a", .int 1), ("b", .object [("c", .null), ("d", .bool true)])]

/-- The same members in another order. -/
def reorderedSample : Value :=
  .object [("b", .object [("d", .bool false), ("c", .null)]), ("a", .int 2)]

theorem mergeAll_reorderedSample :
    ∃ s t, mergeAll [of nestedSample] = .ok s ∧
      mergeAll [of reorderedSample, of nestedSample, of reorderedSample] = .ok t ∧
      s.same t = true := by
  have hn : (of nestedSample).Formed := formed_of (by decide)
  have hr : (of reorderedSample).Formed := formed_of (by decide)
  refine mergeAll_same (by decide) (by decide) ?_ ?_ (by decide +kernel) (by decide +kernel)
  · simpa using hn
  · simpa using ⟨hr, hn, hr⟩

end Shape

end TypeSketch
