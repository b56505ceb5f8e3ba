import TypeSketch.Proofs.Sample

/-!
# Merging in groups

* `cover_congr`: two covers agree when their nulls, names, requirements and merged parts agree.
* `names_merge`, `requires_merge`: what is left in one merged shape of the shapes it was made of.
* `merge_flatten`: **merging groups of shapes and then the results gives what merging all at once
  gives**, properties in the same order.
* `mergeAll_groups`: the same for the merge that refuses to merge nothing.
-/

namespace TypeSketch.Shape

variable {s t : Shape} {shapes : List Shape} {k : Kind} {groups : List (List Shape)}

/-! ## What is left in a merged shape -/

theorem kind_cover : (cover k shapes).kind = k := by cases k <;> rfl

theorem nullable_cover : (cover k shapes).nullable = seesNull shapes := by cases k <;> rfl

/-- Two covers agree when all that they are made of agrees. -/
theorem cover_congr {other : List Shape} (hsees : seesNull shapes = seesNull other)
    (hnames : namesOf shapes = namesOf other)
    (hreq : ∀ name, allRequire (solid shapes) name = allRequire (solid other) name)
    (hbelow : ∀ step, merge (children shapes step) = merge (children other step)) :
    cover k shapes = cover k other := by
  have hreq' : allRequire (solid shapes) = allRequire (solid other) := funext hreq
  cases k <;> simp only [cover, hsees, hnames, hreq', hbelow]

/-- Either several kinds met, or each shape but the nulls is of the one kind there is. -/
theorem ambiguous_or_sole (hs : s ∈ shapes) (h0 : s.kind ≠ .null) :
    merge shapes = ambiguous ∨ Kind.Sole (kinds shapes) s.kind := by
  rcases Kind.void_or_sole_or_mixed (kinds shapes) with hv | ⟨k, hk⟩ | hm
  · exact absurd (hv _ (mem_kinds hs)) h0
  · rw [hk.only _ (mem_kinds hs) h0]
    exact .inr hk
  · exact .inl (merge_mixed hm)

/-- A merged shape keeps the kind of what was merged, or several kinds met. -/
theorem kind_merge (hf : ∀ s ∈ shapes, s.Formed) (hs : s ∈ shapes) (h0 : s.kind ≠ .null) :
    merge shapes = ambiguous ∨ (merge shapes).kind = s.kind := by
  refine (ambiguous_or_sole hs h0).imp_right fun hk => ?_
  rw [merge_sole hf hk, kind_cover]

/-- **Nothing is added to the ambiguous shape.** -/
theorem merge_of_mem_ambiguous (hf : ∀ s ∈ shapes, s.Formed) (h : ambiguous ∈ shapes) :
    merge shapes = ambiguous := by
  rcases Kind.void_or_sole_or_mixed (kinds shapes) with hv | ⟨k, hk⟩ | hm
  · exact absurd (hv _ (mem_kinds h)) Kind.noConfusion
  · obtain rfl : Kind.string = k := hk.only _ (mem_kinds h) Kind.noConfusion
    have hsees : seesNull shapes = true := List.any_eq_true.2 ⟨_, h, rfl⟩
    rw [merge_sole hf hk, cover_of_scalar rfl, hsees]
    rfl
  · exact merge_mixed hm

/-- The names of a merged shape are those of the shapes, in the order of their first use. -/
theorem names_merge (hf : ∀ s ∈ shapes, s.Formed) (hm : ¬ Kind.Mixed (kinds shapes)) :
    Entries.names (merge shapes).fields = namesOf shapes := by
  have hnone : (∀ name, children shapes (.property name) = []) → namesOf shapes = [] :=
    fun h => List.eq_nil_iff_forall_not_mem.2 fun name => children_eq_nil_iff.1 (h name)
  rcases Kind.void_or_sole_or_mixed (kinds shapes) with hv | ⟨k, hk⟩ | hm'
  · rw [merge_void hf hv, hnone fun name => children_of_void hf hv (.property name)]
    rfl
  · rw [merge_sole hf hk]
    by_cases hko : k = .object
    · subst hko
      exact Entries.names_table
    · rw [hnone fun name => children_of_sole_ne hf hk hko]
      cases k <;> first | rfl | exact absurd rfl hko
  · exact absurd hm' hm

/-- A merged shape requires what all of its shapes but the nulls require. -/
theorem requires_merge (hf : ∀ s ∈ shapes, s.Formed) (hk : Kind.Sole (kinds shapes) k)
    (name : Text) : (merge shapes).requires name = allRequire (solid shapes) name := by
  rw [Bool.eq_iff_iff]
  constructor
  · intro h
    rw [merge_sole hf hk] at h
    cases k <;> first | cases h | skip
    exact (List.mem_filter.1 (Labels.mem_ofNames?.1 h)).2
  · intro h
    have hn : name ∈ namesOf shapes := by
      obtain ⟨s, hs, hsk⟩ := List.mem_map.1 hk.mem
      have hr := (allRequire_solid hf).1 h s hs (hsk ▸ hk.ne_null)
      exact mem_namesOf.2 ⟨s, hs, (hf s hs).mem_of_requires hr⟩
    rw [merge_sole hf hk]
    -- only objects require anything
    have hko : k = .object := by
      by_contra hko
      exact children_eq_nil_iff.1 (children_of_sole_ne hf hk hko) hn
    subst hko
    exact Labels.mem_ofNames?.2 (List.mem_filter.2 ⟨hn, h⟩)

/-- A merged shape sees null exactly when one of its shapes does. -/
theorem seesNull_merge (hf : ∀ s ∈ shapes, s.Formed) (hm : ¬ Kind.Mixed (kinds shapes))
    (hne : shapes ≠ []) :
    (decide ((merge shapes).kind = .null) || (merge shapes).nullable) = seesNull shapes := by
  rcases Kind.void_or_sole_or_mixed (kinds shapes) with hv | ⟨k, hk⟩ | hm'
  · obtain ⟨s, hs⟩ := List.exists_mem_of_ne_nil shapes hne
    have hsees : seesNull shapes = true :=
      List.any_eq_true.2 ⟨s, hs, by simp [hv _ (mem_kinds hs)]⟩
    rw [merge_void hf hv, hsees]
    rfl
  · rw [merge_sole hf hk, kind_cover, nullable_cover]
    simp [hk.ne_null]
  · exact absurd hm' hm

/-! ## Groups -/

theorem mem_kinds_flatten {g : List Shape} (hg : g ∈ groups) (h : k ∈ kinds g) :
    k ∈ kinds groups.flatten := by
  obtain ⟨s, hs, rfl⟩ := List.mem_map.1 h
  exact mem_kinds (List.mem_flatten_of_mem hg hs)

theorem formed_flatten (hf : ∀ g ∈ groups, ∀ s ∈ g, s.Formed) : ∀ s ∈ groups.flatten, s.Formed :=
  List.forall_mem_flatten.2 hf

theorem formed_map_merge (hf : ∀ g ∈ groups, ∀ s ∈ g, s.Formed) :
    ∀ s ∈ groups.map merge, s.Formed :=
  List.forall_mem_map.2 fun g hg => formed_merge (hf g hg)

theorem not_mixed_of_flatten (hm : ¬ Kind.Mixed (kinds groups.flatten)) {g : List Shape}
    (hg : g ∈ groups) : ¬ Kind.Mixed (kinds g) := by
  rintro ⟨i, hi, j, hj, hij⟩
  exact hm ⟨i, mem_kinds_flatten hg hi, j, mem_kinds_flatten hg hj, hij⟩

/-- If one kind occurs in all groups together, every group was merged to that kind or to null. -/
theorem sole_kinds_merge (hf : ∀ g ∈ groups, ∀ s ∈ g, s.Formed)
    (hk : Kind.Sole (kinds groups.flatten) k) : Kind.Sole (kinds (groups.map merge)) k := by
  have hsame : ∀ g ∈ groups, ∀ s ∈ g, s.kind ≠ .null → (merge g).kind = k := by
    intro g hg s hs h0
    have hsk : s.kind = k := hk.only _ (mem_kinds (List.mem_flatten_of_mem hg hs)) h0
    rcases Kind.void_or_sole_or_mixed (kinds g) with hv | ⟨j, hj⟩ | hm
    · exact absurd (hv _ (mem_kinds hs)) h0
    · rw [merge_sole (hf g hg) hj, kind_cover, ← hsk]
      exact (hj.only _ (mem_kinds hs) h0).symm
    · exact absurd hm (not_mixed_of_flatten hk.not_mixed hg)
  refine ⟨hk.ne_null, ?_, ?_⟩
  · obtain ⟨s, hs, hsk⟩ := List.mem_map.1 hk.mem
    obtain ⟨g, hg, hsg⟩ := List.mem_flatten.1 hs
    rw [← hsame g hg s hsg (hsk ▸ hk.ne_null)]
    exact mem_kinds (List.mem_map_of_mem hg)
  · intro j hj h0
    obtain ⟨m, hm, rfl⟩ := List.mem_map.1 hj
    obtain ⟨g, hg, rfl⟩ := List.mem_map.1 hm
    by_cases hv : Kind.Void (kinds g)
    · rw [merge_void (hf g hg) hv] at h0
      exact absurd rfl h0
    · obtain ⟨s, hs, hs0⟩ : ∃ s ∈ g, s.kind ≠ .null := by
        simpa [Kind.Void, kinds] using hv
      exact hsame g hg s hs hs0

theorem filterMap_merge? (gs : List (List Shape)) :
    gs.filterMap merge? = (gs.filter fun g => !g.isEmpty).map merge := by
  induction gs with
  | nil => rfl
  | cons g gs ih => cases g <;> simp [merge?, ih]

/-- Below groups that were merged lie the groups of what lies below, merged. -/
theorem children_map_merge (hf : ∀ g ∈ groups, ∀ s ∈ g, s.Formed)
    (hm : ¬ Kind.Mixed (kinds groups.flatten)) (step : Step) :
    children (groups.map merge) step =
      ((groups.map (children · step)).filter fun g => !g.isEmpty).map merge := by
  rw [← filterMap_merge?, children, List.filterMap_map, List.filterMap_map]
  exact List.filterMap_congr fun g hg => child_merge (hf g hg) (not_mixed_of_flatten hm hg) step

theorem seesNull_map_merge (hne : ∀ g ∈ groups, g ≠ []) (hf : ∀ g ∈ groups, ∀ s ∈ g, s.Formed)
    (hm : ¬ Kind.Mixed (kinds groups.flatten)) :
    seesNull (groups.map merge) = seesNull groups.flatten := by
  rw [seesNull, seesNull, List.any_map, List.any_flatten, Bool.eq_iff_iff, List.any_eq_true,
    List.any_eq_true]
  refine exists_congr fun g => and_congr_right fun hg => ?_
  rw [Function.comp_apply, seesNull_merge (hf g hg) (not_mixed_of_flatten hm hg) (hne g hg)]
  rfl

theorem namesOf_map_merge (hf : ∀ g ∈ groups, ∀ s ∈ g, s.Formed)
    (hm : ¬ Kind.Mixed (kinds groups.flatten)) :
    namesOf (groups.map merge) = namesOf groups.flatten := by
  have hnames : groups.flatMap (fun g => Entries.names (merge g).fields) =
      groups.flatMap fun g => (g.flatMap fun s => Entries.names s.fields).eraseDups := by
    refine List.flatMap_congr fun g hg => ?_
    rw [names_merge (hf g hg) (not_mixed_of_flatten hm hg)]
    rfl
  rw [namesOf, namesOf, List.flatMap_map, hnames, eraseDups_flatMap, ← List.flatMap_id,
    List.flatMap_assoc]
  rfl

theorem allRequire_map_merge (hf : ∀ g ∈ groups, ∀ s ∈ g, s.Formed)
    (hm : ¬ Kind.Mixed (kinds groups.flatten)) (name : Text) :
    allRequire (solid (groups.map merge)) name = allRequire (solid groups.flatten) name := by
  have hgroup : ∀ g ∈ groups, ((merge g).kind ≠ .null → (merge g).requires name = true) ↔
      ∀ s ∈ g, s.kind ≠ .null → s.requires name = true := by
    intro g hg
    rcases Kind.void_or_sole_or_mixed (kinds g) with hv | ⟨k, hk⟩ | hm'
    · rw [merge_void (hf g hg) hv]
      exact ⟨fun _ s hs h0 => absurd (hv _ (mem_kinds hs)) h0, fun _ h0 => absurd rfl h0⟩
    · have h0 : (merge g).kind ≠ .null := by
        rw [merge_sole (hf g hg) hk, kind_cover]
        exact hk.ne_null
      rw [requires_merge (hf g hg) hk, allRequire_solid (hf g hg)]
      exact ⟨fun h => h h0, fun h _ => h⟩
    · exact absurd hm' (not_mixed_of_flatten hm hg)
  rw [Bool.eq_iff_iff, allRequire_solid (formed_map_merge hf), allRequire_solid (formed_flatten hf),
    List.forall_mem_map, List.forall_mem_flatten]
  exact forall₂_congr hgroup

/-- Several kinds in all groups together meet in one group or among the merged shapes. -/
theorem merge_map_of_mixed (hf : ∀ g ∈ groups, ∀ s ∈ g, s.Formed)
    (hm : Kind.Mixed (kinds groups.flatten)) : merge (groups.map merge) = ambiguous := by
  obtain ⟨i, hi, j, hj, hi0, hj0, hij⟩ := hm
  obtain ⟨s, hs, rfl⟩ := List.mem_map.1 hi
  obtain ⟨t, ht, rfl⟩ := List.mem_map.1 hj
  obtain ⟨g, hg, hsg⟩ := List.mem_flatten.1 hs
  obtain ⟨g', hg', htg⟩ := List.mem_flatten.1 ht
  have hmem : merge g ∈ groups.map merge := List.mem_map_of_mem hg
  have hmem' : merge g' ∈ groups.map merge := List.mem_map_of_mem hg'
  rcases kind_merge (hf g hg) hsg hi0 with ha | hks
  · exact merge_of_mem_ambiguous (formed_map_merge hf) (ha ▸ hmem)
  rcases kind_merge (hf g' hg') htg hj0 with ha | hkt
  · exact merge_of_mem_ambiguous (formed_map_merge hf) (ha ▸ hmem')
  refine merge_mixed ⟨s.kind, hks ▸ mem_kinds hmem, t.kind, hkt ▸ mem_kinds hmem', hi0, hj0, hij⟩

/-- **Merging in groups gives what merging all at once gives.** -/
theorem merge_flatten (hne : ∀ g ∈ groups, g ≠ []) (hf : ∀ g ∈ groups, ∀ s ∈ g, s.Formed) :
    merge (groups.map merge) = merge groups.flatten := by
  generalize hflat : groups.flatten = flat
  induction flat using children_induction generalizing groups with
  | below flat ih =>
    subst hflat
    have hfl := formed_flatten hf
    have hfm := formed_map_merge hf
    rcases Kind.void_or_sole_or_mixed (kinds groups.flatten) with hv | ⟨k, hk⟩ | hm
    · have hvm : Kind.Void (kinds (groups.map merge)) := by
        intro j hj
        obtain ⟨m, hm, rfl⟩ := List.mem_map.1 hj
        obtain ⟨g, hg, rfl⟩ := List.mem_map.1 hm
        rw [merge_void (hf g hg) fun i hi => hv i (mem_kinds_flatten hg hi)]
        rfl
      rw [merge_void hfl hv, merge_void hfm hvm]
    · have hm := hk.not_mixed
      rw [merge_sole hfl hk, merge_sole hfm (sole_kinds_merge hf hk)]
      refine cover_congr (seesNull_map_merge hne hf hm) (namesOf_map_merge hf hm)
        (allRequire_map_merge hf hm) fun step => ?_
      have hflne := ne_nil_of_sole hk
      rw [children_map_merge hf hm]
      -- the parts of the groups are again groups of well-formed shapes, less the empty ones
      refine ih hflne step (fun g hg => ?_) (fun g hg => ?_) ?_
      · simpa using (List.mem_filter.1 hg).2
      · obtain ⟨g', hg', rfl⟩ := List.mem_map.1 (List.mem_filter.1 hg).1
        exact Formed.children (hf g' hg')
      · rw [List.flatten_filter_not_isEmpty, children, List.filterMap_flatten]
        rfl
    · rw [merge_map_of_mixed hf hm, merge_mixed hm]

/-! ## Refusing to merge nothing -/

theorem mapM_mergeAll (hne : ∀ g ∈ groups, g ≠ []) :
    groups.mapM mergeAll = .ok (groups.map merge) := by
  induction groups with
  | nil => rfl
  | cons g rest ih =>
    rw [List.mapM_cons, mergeAll_of_ne_nil (hne g List.mem_cons_self),
      ih fun g' hg' => hne g' (List.mem_cons_of_mem _ hg')]
    rfl

/-- **Merging is insensitive to regrouping**: of at least one group of at least one well-formed
shape each, merging every group and then the results succeeds and gives the very shape, properties
in the same order, that merging all shapes at once gives. -/
theorem mergeAll_groups (h0 : groups ≠ []) (hne : ∀ g ∈ groups, g ≠ [])
    (hf : ∀ g ∈ groups, ∀ s ∈ g, s.Formed) :
    ∃ s, groups.mapM mergeAll >>= mergeAll = .ok s ∧ mergeAll groups.flatten = .ok s := by
  obtain ⟨g, hg⟩ := List.exists_mem_of_ne_nil groups h0
  have hflat : groups.flatten ≠ [] := fun h => hne g hg (List.flatten_eq_nil_iff.1 h g hg)
  refine ⟨merge groups.flatten, ?_, mergeAll_of_ne_nil hflat⟩
  rw [mapM_mergeAll hne, ← merge_flatten hne hf]
  exact mergeAll_of_ne_nil (by simpa using h0)

/-- Samples in three groups: an object beside null, two objects with other members in another order,
and an empty object. -/
def sampleGroups : List (List Value) :=
  [[.object [("a", .int 1), ("b", .null)], .null],
   [.object [("b", .array []), ("a", .int 2)], .object [("c", .string "x"), ("a", .bool true)]],
   [.object []]]

theorem mergeAll_sampleGroups :
    ∃ s, (sampleGroups.map (·.map of)).mapM mergeAll >>= mergeAll = .ok s ∧
      mergeAll (sampleGroups.map (·.map of)).flatten = .ok s := by
  refine mergeAll_groups (by decide) (by decide) ?_
  refine List.forall_mem_map.2 fun g hg => List.forall_mem_map.2 fun v hv => formed_of ?_
  have hj : ∀ g ∈ sampleGroups, ∀ v ∈ g, v.IsJson := by decide
  exact hj g hg v hv

end TypeSketch.Shape
