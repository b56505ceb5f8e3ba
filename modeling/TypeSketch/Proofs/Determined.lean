import TypeSketch.Proofs.Listing
import TypeSketch.Proofs.Obtained

/-!
# Declarations determine the shape

A declaration shows the names, the types and which fields are optional; it shows no kinds, no set of
required names and no order of numbers. For regular shapes nothing is lost all the same.

* `Declaration.shown`: what is written of a declaration.
* `TypeExpr.source`: the kind of the shapes that have a type, and whether they are nullable.
* `eq_of_typeFrom`: two shapes of one type, whose records are shown in one list, are equal.
* `sound_iff_regular`: sound shapes are those that are regular at every place.
* `eq_of_shown`: **regular shapes whose declarations show the same are equal**, unless the null of a
  record at the root is left out.
-/

namespace TypeSketch

/-- What is written of a field. -/
def Field.shown (f : Field) : Text × TypeExpr × Bool := (f.key, f.type, f.optional)

/-- What is written of what a name is declared as. -/
def Body.shown : Body → TypeExpr ⊕ List (Text × TypeExpr × Bool)
  | .alias t => .inl t
  | .record fields => .inr (fields.map Field.shown)

/-- What is written of a declaration. -/
def Declaration.shown (d : Declaration) : Text × (TypeExpr ⊕ List (Text × TypeExpr × Bool)) :=
  (d.name, d.body.shown)

theorem Field.shown_eq {f g : Field} (hk : f.key = g.key) (ht : f.type = g.type)
    (ho : f.optional = g.optional) : f.shown = g.shown := by rw [shown, shown, hk, ht, ho]

theorem Declaration.shown_eq {d e : Declaration} (hn : d.name = e.name)
    (hb : d.body.shown = e.body.shown) : d.shown = e.shown := by rw [shown, shown, hn, hb]

/-- The kind of the shapes that have a type, and whether they are nullable. -/
def TypeExpr.source : TypeExpr → Kind × Bool
  | .null => (.null, false)
  | .text => (.string, false)
  | .number => (.number, false)
  | .boolean => (.boolean, false)
  | .anyObject | .named _ => (.object, false)
  | .anyList | .list _ => (.array, false)
  | .orNull t => (t.source.1, true)

theorem TypeExpr.source_withNullable {t : TypeExpr} {k : Kind} (h : t.source = (k, false))
    (nullable : Bool) : (t.withNullable nullable).source = (k, nullable) := by
  cases nullable
  · exact h
  · exact congrArg (fun p => (p.1, true)) h

theorem TypeExpr.withNullable_injective (nullable : Bool) :
    Function.Injective (TypeExpr.withNullable nullable) := by
  intro t u h
  cases nullable
  · exact h
  · exact TypeExpr.orNull.inj h

namespace Shape

variable {s t : Shape} {root : Text} {name : Nat → Text} {i j : Nat}
  {shown : List (Text × (TypeExpr ⊕ List (Text × TypeExpr × Bool)))}

/-- A type tells the kind of its shape and whether the shape is nullable. -/
theorem source_typeFrom (h : s.Formed) (name : Nat → Text) (i : Nat) :
    (typeFrom name i s).source = (s.kind, s.nullable) := by
  cases h with
  | null => rfl
  | @scalar k nullable hk =>
    cases k with
    | string | number | boolean => exact TypeExpr.source_withNullable rfl nullable
    | _ => cases hk
  | array =>
    refine TypeExpr.source_withNullable ?_ _
    rw [typeFromItems]
    split <;> rfl
  | object =>
    refine TypeExpr.source_withNullable ?_ _
    split <;> rfl

theorem source_eq (hs : s.Formed) (ht : t.Formed) (h : typeFrom name i s = typeFrom name j t) :
    (s.kind, s.nullable) = (t.kind, t.nullable) := by
  rw [← source_typeFrom hs name i, h, source_typeFrom ht]

/-! ## Shapes known from their types -/

/-- A shape is known from its type among sound shapes, whatever the number of its first record. -/
def Known (shown : List (Text × (TypeExpr ⊕ List (Text × TypeExpr × Bool)))) (root : Text)
    (s : Shape) : Prop :=
  ∀ {t : Shape} {i j : Nat}, t.Sound →
    typeFrom (nestedName root) i s = typeFrom (nestedName root) j t →
    Declared true root (·.shown ∈ shown) i s.records →
    Declared true root (·.shown ∈ shown) j t.records → s = t

/-- Properties are known from the fields that show them. -/
theorem eq_of_fieldsFrom {req req' : List Label} {fs gs : List (Text × Shape)}
    (hknown : ∀ f ∈ fs, Known shown root f.2) (hg : ∀ g ∈ gs, g.2.Sound)
    (h : (fieldsFrom true (nestedName root) req i fs).map Field.shown =
      (fieldsFrom true (nestedName root) req' i gs).map Field.shown)
    (hfs : Declared true root (·.shown ∈ shown) i (recordsOfFields fs))
    (hgs : Declared true root (·.shown ∈ shown) i (recordsOfFields gs)) :
    fs = gs ∧ ∀ f ∈ fs, isOptional true req f.1 f.2.kind = isOptional true req' f.1 f.2.kind := by
  induction fs generalizing gs i with
  | nil =>
    cases gs with
    | nil => exact ⟨rfl, by simp⟩
    | cons g gs => cases h
  | cons f fs ih =>
    cases gs with
    | nil => cases h
    | cons g gs =>
      obtain ⟨key, s⟩ := f
      obtain ⟨key', t⟩ := g
      rw [List.forall_mem_cons] at hknown hg
      simp only [fieldsFrom, List.map_cons, List.cons.injEq, Field.shown, Prod.mk.injEq] at h
      obtain ⟨⟨rfl, htype, hoptional⟩, hrest⟩ := h
      obtain ⟨hs, hfs⟩ := declared_append.1 hfs
      obtain ⟨ht, hgs⟩ := declared_append.1 hgs
      obtain rfl : s = t := hknown.1 hg.1 htype hs ht
      -- equal shapes have equally many records, so what follows is numbered alike
      obtain ⟨rfl, hall⟩ := ih hknown.2 hg.2 hrest hfs hgs
      exact ⟨rfl, List.forall_mem_cons.2 ⟨hoptional, hall⟩⟩

/-- Objects are known from the fields that show their properties: what is optional tells what is
required. -/
theorem eq_of_recordFields (hs : s.Sound) (ht : t.Sound) (hks : s.kind = .object)
    (hkt : t.kind = .object) (hn : s.nullable = t.nullable)
    (hknown : ∀ f ∈ s.fields, Known shown root f.2)
    (h : (recordFields true (nestedName root) i s).map Field.shown =
      (recordFields true (nestedName root) i t).map Field.shown)
    (hfs : Declared true root (·.shown ∈ shown) i (recordsOfFields s.fields))
    (hgs : Declared true root (·.shown ∈ shown) i (recordsOfFields t.fields)) : s = t := by
  obtain ⟨hfields, hoptional⟩ := eq_of_fieldsFrom hknown (fun g hg => ht.property hg) h hfs hgs
  have hreq : ∀ f ∈ s.fields, s.requires f.1 = t.requires f.1 := by
    intro f hf
    have hget : Entries.get? s.fields f.1 = some f.2 :=
      (Entries.get?_eq_some_iff hs.formed.nodup_names).2 hf
    by_cases hnull : f.2.kind = .null
    · -- a property that is null is not required
      have hs' : ¬ s.requires f.1 = true := fun hr => (hs.root_firm _ _ hr hget).1 hnull
      have ht' : ¬ t.requires f.1 = true := fun hr =>
        (ht.root_firm _ _ hr (by rw [child, ← hfields]; exact hget)).1 hnull
      rw [Bool.eq_false_iff.2 hs', Bool.eq_false_iff.2 ht']
    · have := hoptional f hf
      simpa [isOptional, hnull, requires] using this
  have hrequired : s.required = t.required := by
    rw [hs.formed.required_eq, ht.formed.required_eq, ← hfields]
    refine congrArg _ (List.filter_congr fun n hn => ?_)
    obtain ⟨f, hf, rfl⟩ := List.mem_map.1 hn
    exact hreq f hf
  rw [hs.formed.eq_object hks, ht.formed.eq_object hkt, hfields, hrequired, hn]

/-- Objects are known from their types: the name that both have shows the fields. -/
theorem eq_of_object (hn : (shown.map (·.1)).Nodup) (hs : s.Sound) (ht : t.Sound)
    (hks : s.kind = .object) (hkt : t.kind = .object) (hnull : s.nullable = t.nullable)
    (hknown : ∀ f ∈ s.fields, Known shown root f.2)
    (h : typeFrom (nestedName root) i s = typeFrom (nestedName root) j t)
    (hds : Declared true root (·.shown ∈ shown) i s.records)
    (hdt : Declared true root (·.shown ∈ shown) j t.records) : s = t := by
  rw [typeFrom_of_object hks, typeFrom_of_object hkt, hnull] at h
  have h := TypeExpr.withNullable_injective _ h
  by_cases hes : s.fields = []
  · have het : t.fields = [] := by
      by_contra het
      rw [if_pos hes, if_neg het] at h
      cases h
    refine eq_of_recordFields (i := 0) hs ht hks hkt hnull hknown ?_ ?_ ?_
    · rw [recordFields, recordFields, hes, het]
      rfl
    all_goals
      simp [hes, het, recordsOfFields, Declared, recordDeclarations]
  · have het : t.fields ≠ [] := by
      intro het
      rw [if_neg hes, if_pos het] at h
      cases h
    rw [if_neg hes, if_neg het] at h
    obtain rfl : i = j := nestedName_injective root (TypeExpr.named.inj h)
    rw [records_of_record (isRecord_iff.2 ⟨hks, hes⟩), declared_cons] at hds
    rw [records_of_record (isRecord_iff.2 ⟨hkt, het⟩), declared_cons] at hdt
    -- both declarations go by the name of the number, so they show the same
    have hsame := List.inj_on_of_nodup_map hn hds.1 hdt.1 rfl
    exact eq_of_recordFields hs ht hks hkt hnull hknown (Sum.inr.inj (Prod.mk.inj hsame).2) hds.2
      hdt.2

/-- **Sound shapes are known from their types**, when no name is shown twice. -/
theorem known_of_sound (hn : (shown.map (·.1)).Nodup) (hs : s.Sound) : Known shown root s := by
  have hf := hs.formed
  induction hf with
  | null =>
    intro t i j ht h _ _
    obtain ⟨hk, hnull⟩ := Prod.mk.inj (source_eq hs.formed ht.formed h)
    exact (ht.formed.eq_null hk.symm).symm
  | @scalar k nullable hk =>
    intro t i j ht h _ _
    obtain ⟨hkt, hnull⟩ := Prod.mk.inj (source_eq hs.formed ht.formed h)
    simp only at hkt hnull
    rw [ht.formed.eq_scalar (hkt ▸ hk), hkt, hnull]
  | @array items nullable hi ih =>
    intro t i j ht h hds hdt
    obtain ⟨hkt, hnull⟩ := Prod.mk.inj (source_eq hs.formed ht.formed h)
    obtain ⟨items', nullable', hi', rfl⟩ := ht.formed.eq_array hkt.symm
    obtain rfl : nullable = nullable' := hnull
    have h := TypeExpr.withNullable_injective _ h
    have hitems : items = items' := by
      rw [typeFromItems, typeFromItems] at h
      by_cases hnull : items.kind = .null
      · by_cases hnull' : items'.kind = .null
        · rw [hi.eq_null hnull, hi'.eq_null hnull']
        · rw [if_pos hnull, if_neg hnull'] at h
          cases h
      · by_cases hnull' : items'.kind = .null
        · rw [if_neg hnull, if_pos hnull'] at h
          cases h
        · rw [if_neg hnull, if_neg hnull'] at h
          exact ih (hs.items rfl) (ht.items rfl) (TypeExpr.list.inj h) hds hdt
    rw [hitems]
  | @object fields names nullable hd hf hnames ih =>
    intro t i j ht h hds hdt
    obtain ⟨hkt, hnull⟩ := Prod.mk.inj (source_eq hs.formed ht.formed h)
    have hknown : ∀ f ∈ fields, Known shown root f.2 := fun f hfield =>
      ih f hfield (hs.property hfield)
    refine eq_of_object hn hs ht rfl hkt.symm hnull hknown h hds hdt

/-! ## Whole shapes -/

/-- What is shown of the records below a shape is shown of its declarations. -/
theorem declared_shown (root : Text) (s : Shape) :
    Declared true root (·.shown ∈ (s.declarations true root).map Declaration.shown) 0
      s.recordsBelow :=
  fun d hd => List.mem_map_of_mem (declared_below true root s d hd)

theorem nodup_shown (root : Text) (s : Shape) :
    (((s.declarations true root).map Declaration.shown).map (·.1)).Nodup := by
  rw [List.map_map]
  exact nodup_names_declarations s

/-- **Sound shapes whose declarations show the same are equal**, if neither is a record at the root
whose null is left out. -/
theorem eq_of_shown (hs : s.Sound) (ht : t.Sound) (hns : ¬ (s.isRecord = true ∧ s.nullable = true))
    (hnt : ¬ (t.isRecord = true ∧ t.nullable = true))
    (h : (s.declarations true root).map Declaration.shown =
      (t.declarations true root).map Declaration.shown) : s = t := by
  have hds := declared_shown root s
  have hdt := declared_shown root t
  rw [← h] at hdt
  have hnodup := nodup_shown root s
  -- the last declaration is that of the root
  have hbody : (rootBody true root s).shown = (rootBody true root t).shown := by
    rw [declarations_eq, declarations_eq, List.map_append, List.map_append] at h
    have hlast := congrArg List.getLast? h
    rw [List.map_singleton, List.map_singleton, List.getLast?_concat, List.getLast?_concat] at hlast
    exact (Prod.mk.inj (Option.some.inj hlast)).2
  rw [rootBody, rootBody] at hbody
  by_cases hrs : s.isRecord = true
  · by_cases hrt : t.isRecord = true
    · rw [if_pos hrs, if_pos hrt] at hbody
      rw [recordsBelow, if_pos hrs] at hds
      rw [recordsBelow, if_pos hrt] at hdt
      have hnull : s.nullable = t.nullable := by simp_all
      refine eq_of_recordFields hs ht (isRecord_iff.1 hrs).1 (isRecord_iff.1 hrt).1 hnull
        (fun f hf => ?_) (Sum.inr.inj hbody) hds hdt
      exact known_of_sound hnodup (hs.property hf)
    · rw [if_pos hrs, if_neg hrt] at hbody
      cases hbody
  · by_cases hrt : t.isRecord = true
    · rw [if_neg hrs, if_pos hrt] at hbody
      cases hbody
    · rw [if_neg hrs, if_neg hrt] at hbody
      rw [recordsBelow, if_neg hrs] at hds
      rw [recordsBelow, if_neg hrt] at hdt
      exact known_of_sound hnodup hs ht (Sum.inl.inj hbody) hds hdt

/-! ## Regular at every place -/

theorem Regular.firm (h : s.Regular) : s.Firm := fun name t hr ht => by
  obtain ⟨u, hu, hkind, hnull⟩ := h.required name hr
  obtain rfl : u = t := Option.some.inj (hu.symm.trans ht)
  exact ⟨hkind, hnull⟩

/-- A regular node is well formed if what lies below it is. -/
theorem Regular.formed (h : s.Regular) (hc : ∀ step t, s.child step = some t → t.Formed) :
    s.Formed := by
  obtain ⟨kind, properties, required, items, nullable⟩ := s
  cases kind with
  | object =>
    obtain ⟨hi, fields, hp, hd, hr⟩ := h.object rfl
    simp only at hi hp hr
    subst hi hp
    have hchild : ∀ f ∈ fields, f.2.Formed := fun f hf =>
      hc (.property f.1) f.2 ((Entries.get?_eq_some_iff hd).2 hf)
    rcases hr with rfl | ⟨names, hne, hn, rfl⟩
    · rw [← Labels.ofNames?_nil]
      exact .object hd hchild (by simp)
    · rw [← Labels.ofNames?_of_ne_nil hne]
      exact .object hd hchild hn
  | array =>
    obtain ⟨⟨t, hi⟩, hp, hr⟩ := h.array rfl
    simp only at hi hp hr
    subst hi hp hr
    exact .array (hc .elements t rfl)
  | null =>
    obtain ⟨hp, hr, hi⟩ := h.leaf Kind.noConfusion Kind.noConfusion
    have hn := h.null rfl
    simp only at hi hp hr hn
    subst hi hp hr hn
    exact .null
  | string | number | boolean =>
    obtain ⟨hp, hr, hi⟩ := h.leaf Kind.noConfusion Kind.noConfusion
    simp only at hi hp hr
    subst hi hp hr
    exact .scalar rfl

/-- What lies below a shape weighs less. -/
theorem weight_child_lt {step : Step} (h : s.child step = some t) : t.weight < s.weight := by
  cases step with
  | property name => exact Nat.lt_of_le_of_lt (weight_get?_le h) (fieldsWeight_lt s)
  | elements => exact weight_items_lt h

/-- **Sound shapes are those that are regular at every place.** -/
theorem sound_iff_regular : s.Sound ↔ ∀ place t, s.at? place = some t → t.Regular := by
  refine ⟨fun h place t ht => (h.at ht).regular, fun h => ?_⟩
  induction hw : s.weight using Nat.strong_induction_on generalizing s with
  | _ w ih =>
    subst hw
    have hroot := h [] s rfl
    have hchild : ∀ step t, s.child step = some t → t.Sound := fun step t ht =>
      ih _ (weight_child_lt ht) (fun place u hu => h (step :: place) u (by rw [at?, ht]; exact hu))
        rfl
    exact .of_children (hroot.formed fun step t ht => (hchild step t ht).formed) hroot.firm hchild

end Shape

end TypeSketch
