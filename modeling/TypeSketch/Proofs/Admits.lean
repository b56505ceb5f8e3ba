import TypeSketch.Proofs.Regroup
import TypeSketch.Proofs.Sample

/-!
# Which values a shape admits

* `Admits`: when a value conforms to a shape.
* `admits_merge`: **a merged shape admits what any of its shapes admits**, seen or not.
* `admits_of`: a value conforms to its own shape.
* `infer_merge_sound`: both, for inference within a limit and for merging at least one shape.
-/

namespace TypeSketch.Shape

/-- **When a value conforms to a shape.** Null conforms where null was seen, and everything conforms
to the ambiguous shape. Besides, a scalar conforms to its kind, an array to the shape of an array
when its elements conform to that of the elements, and an object to the shape of an object when all
its members are properties and conform to them and every required name is there and not null. -/
inductive Admits : Shape → Value → Prop
  | null {s : Shape} (h : s.kind = .null ∨ s.nullable = true) : Admits s .null
  | any (v : Value) : Admits ambiguous v
  | bool {s : Shape} {b : Bool} (hk : s.kind = .boolean) : Admits s (.bool b)
  | number {s : Shape} {n : Numeral} (hk : s.kind = .number) : Admits s (.number n)
  | string {s : Shape} {t : Text} (hk : s.kind = .string) : Admits s (.string t)
  | array {s t : Shape} {elements : List Value} (hk : s.kind = .array) (hi : s.items = some t)
    (h : ∀ v ∈ elements, Admits t v) : Admits s (.array elements)
  | object {s : Shape} {members : List (Text × Value)} (hk : s.kind = .object)
    (hp : ∀ m ∈ members, m.1 ∈ Entries.names s.fields)
    (h : ∀ m ∈ members, ∀ t, Entries.get? s.fields m.1 = some t → Admits t m.2)
    (hr : ∀ name, s.requires name = true →
      ∃ v, Entries.get? members name = some v ∧ v.isNull = false) :
    Admits s (.object members)

variable {s t : Shape} {shapes : List Shape} {v : Value} {k : Kind}

/-! ## Merged shapes admit more -/

/-- Null is admitted wherever it was seen. -/
theorem null_merge (hf : ∀ s ∈ shapes, s.Formed) (hs : s ∈ shapes)
    (h : s.kind = .null ∨ s.nullable = true) :
    (merge shapes).kind = .null ∨ (merge shapes).nullable = true := by
  rcases Kind.void_or_sole_or_mixed (kinds shapes) with hv | ⟨k, hk⟩ | hm
  · rw [merge_void hf hv]
    exact .inl rfl
  · rw [merge_sole hf hk, nullable_cover]
    exact .inr (List.any_eq_true.2 ⟨s, hs, by simpa using h⟩)
  · rw [merge_mixed hm]
    exact .inr rfl

/-- What every shape of a kind admits, a shape merged from one of the kind admits. -/
theorem admits_of_kind (hf : ∀ s ∈ shapes, s.Formed) (hs : s ∈ shapes) (h0 : s.kind ≠ .null)
    (h : ∀ t : Shape, t.kind = s.kind → t.Admits v) : (merge shapes).Admits v := by
  rcases kind_merge hf hs h0 with ha | hk
  · rw [ha]
    exact .any v
  · exact h _ hk

/-- **A merged shape admits what any of its shapes admits.** -/
theorem admits_merge (hf : ∀ s ∈ shapes, s.Formed) (hs : s ∈ shapes) (h : s.Admits v) :
    (merge shapes).Admits v := by
  induction h generalizing shapes with
  | null h => exact .null (null_merge hf hs h)
  | any v =>
    rw [merge_of_mem_ambiguous hf hs]
    exact .any v
  | bool hk =>
    exact admits_of_kind hf hs (hk ▸ Kind.noConfusion) fun t ht => .bool (ht.trans hk)
  | number hk =>
    exact admits_of_kind hf hs (hk ▸ Kind.noConfusion) fun t ht => .number (ht.trans hk)
  | string hk =>
    exact admits_of_kind hf hs (hk ▸ Kind.noConfusion) fun t ht => .string (ht.trans hk)
  | @array s t elements hk hi _ ih =>
    rcases ambiguous_or_sole hs (hk ▸ Kind.noConfusion) with ha | hsole
    · rw [ha]
      exact .any _
    · have ht : t ∈ children shapes .elements := List.mem_filterMap.2 ⟨s, hs, hi⟩
      have hitems : (merge shapes).items = some (merge (children shapes .elements)) :=
        (child_merge hf hsole.not_mixed .elements).trans (merge?_of_mem ht)
      refine .array ?_ hitems fun v hv => ih v hv (Formed.children hf) ht
      rw [merge_sole hf hsole, kind_cover, hk]
  | @object s members hk hp _ hr ih =>
    rcases ambiguous_or_sole hs (hk ▸ Kind.noConfusion) with ha | hsole
    · rw [ha]
      exact .any _
    · refine .object ?_ (fun m hm => ?_) (fun m hm u hu => ?_) fun name hreq => ?_
      · rw [merge_sole hf hsole, kind_cover, hk]
      · rw [names_merge hf hsole.not_mixed]
        exact mem_namesOf.2 ⟨s, hs, hp m hm⟩
      · obtain ⟨t, ht⟩ := Entries.exists_get?_of_mem (hp m hm)
        have hmem : t ∈ children shapes (.property m.1) := List.mem_filterMap.2 ⟨s, hs, ht⟩
        have hchild := (child_merge hf hsole.not_mixed (.property m.1)).trans (merge?_of_mem hmem)
        obtain rfl := Option.some.inj (hu.symm.trans hchild)
        exact ih m hm t ht (Formed.children hf) hmem
      · -- what the merged shape requires, this shape requires too
        rw [requires_merge hf hsole, allRequire_solid hf] at hreq
        exact hr name (hreq s hs (hk ▸ Kind.noConfusion))

/-! ## Samples conform to their own shape -/

/-- **A value conforms to its own shape.** -/
theorem admits_of (hv : v.IsJson) : (of v).Admits v := by
  induction hv with
  | null => exact .null (.inl rfl)
  | bool b => exact .bool rfl
  | number n => exact .number rfl
  | string t => exact .string rfl
  | @array elements hj ih =>
    refine .array rfl (items_of_array elements) fun v hv => ?_
    -- the elements have a merged shape, which admits what the shape of one of them does
    exact admits_merge (List.forall_mem_map.2 fun w hw => formed_of (hj w hw))
      (List.mem_map_of_mem hv) (ih v hv)
  | @object members hd hj ih =>
    have hfields := fields_of_object members
    refine .object rfl (fun m hm => ?_) (fun m hm t ht => ?_) fun name hn => ?_
    · rw [hfields, Entries.names_map]
      exact List.mem_map_of_mem hm
    · rw [hfields, Entries.get?_map, (Entries.get?_eq_some_iff hd).2 hm] at ht
      cases ht
      exact ih m hm
    · exact (requires_of_object hd).1 hn

/-- **Inference is sound and merging gives an upper bound.** Every JSON value has one shape, which
is inferred within any limit that the value nests within, and conforms to it. Of well-formed shapes,
at least one, the merged shape exists and admits whatever one of them admits. -/
theorem infer_merge_sound :
    (∀ v : Value, v.IsJson → ∃ s : Shape, s.Admits v ∧ ∀ limit : Int, infer (some limit) v =
      if (v.height : Int) ≤ limit then .ok s else .error (.tooDeep (some limit))) ∧
    ∀ shapes : List Shape, shapes ≠ [] → (∀ s ∈ shapes, s.Formed) →
      ∃ merged : Shape, mergeAll shapes = .ok merged ∧
        ∀ s ∈ shapes, ∀ v : Value, s.Admits v → merged.Admits v :=
  ⟨fun v hv => ⟨of v, admits_of hv, infer_eq hv⟩,
    fun shapes h0 hf => ⟨merge shapes, mergeAll_of_ne_nil h0, fun _ hs _ => admits_merge hf hs⟩⟩

theorem infer_merge_sound_at :
    (∃ s : Shape, s.Admits (.array [.int 1, .array [], .null]) ∧
      infer (some 1) (.array [.int 1, .array [], .null]) = .ok s) ∧
    ∃ merged : Shape, mergeAll [of (.object [("a", .int 1)]), of (.object [("b", .null)]), null] =
      .ok merged ∧ merged.Admits (.object [("a", .int 7)]) := by
  constructor
  · obtain ⟨s, hs, hinfer⟩ := infer_merge_sound.1 (.array [.int 1, .array [], .null]) (by decide)
    exact ⟨s, hs, (hinfer 1).trans (if_pos (by decide))⟩
  · have ha : (of (.object [("a", .int 1)])).Formed := formed_of (by decide)
    have hb : (of (.object [("b", .null)])).Formed := formed_of (by decide)
    obtain ⟨merged, hmerged, hadmits⟩ := infer_merge_sound.2
      [of (.object [("a", .int 1)]), of (.object [("b", .null)]), null] (by decide)
      (by simpa using ⟨ha, hb, Formed.null⟩)
    refine ⟨merged, hmerged, hadmits _ List.mem_cons_self _ ?_⟩
    refine .object rfl (by decide) (fun m hm t ht => ?_) fun name hr => ?_
    · obtain rfl := List.mem_singleton.1 hm
      cases ht
      exact .number rfl
    · obtain ⟨v, hv, -⟩ := (requires_of_object (by decide)).1 hr
      obtain ⟨rfl, -⟩ : name = ("a" : Text) ∧ v = .int 1 := by
        simpa using Entries.mem_of_get? hv
      exact ⟨.int 7, rfl, rfl⟩

end TypeSketch.Shape
