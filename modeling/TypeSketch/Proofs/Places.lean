import TypeSketch.Proofs.Listing
import TypeSketch.Proofs.RequiredNames

/-!
# Places and their rows

The rows below a shape are listed for its places: the properties of objects and the elements of
arrays, at any depth.

* `node?`, `places`: the shape at a place, and the places of a shape in the order of the listing.
* `PlainlyNamed`: the names of the properties are distinct and hold no signs of paths.
* `mem_places_iff`, `pairwise_places`: **the places are those where something is, in pre-order.**
* `rows_paths`: **every row is that of the place it is listed for.**
-/

namespace TypeSketch.Shape

variable {s t : Shape} {step : Step} {place p q : List Step} {above : Text}

/-! ## Places -/

/-- The shape one step below a shape, if its kind has such steps. -/
def below? (s : Shape) (step : Step) : Option Shape :=
  if s.kind = step.kind then s.child step else none

/-- The shape at a place below a shape. -/
def node? (s : Shape) : List Step → Option Shape
  | [] => some s
  | step :: rest => (s.below? step).bind fun t => t.node? rest

mutual

/-- The places below a shape in the order of the listing. -/
def places : Shape → List (List Step)
  | ⟨kind, properties, _, items, _⟩ =>
    match kind with
    | .object => placesOfProperties properties
    | .array => placesOfItems items
    | _ => []

/-- The places of the properties and below them. -/
def placesOfProperties : Option (List (Text × Shape)) → List (List Step)
  | none => []
  | some fields => placesOfFields fields

/-- The place of the elements and those below it. -/
def placesOfItems : Option Shape → List (List Step)
  | none => []
  | some s => [.elements] :: (places s).map (.elements :: ·)

/-- The places of some properties and below them. -/
def placesOfFields : List (Text × Shape) → List (List Step)
  | [] => []
  | (name, s) :: rest =>
    [.property name] :: ((places s).map (.property name :: ·) ++ placesOfFields rest)

end

/-- The path of what lies one step below a path. -/
def Step.path (above : Text) : Step → Text
  | .property name => propertyPath above name
  | .elements => itemsPath above

/-- The path of a place. -/
def pathTo (above : Text) (place : List Step) : Text := place.foldl Step.path above

/-- Whether what lies one step below an object or an array is required. Elements always are. -/
def requiresStep (s : Shape) : Step → Bool
  | .property name => s.requires name
  | .elements => true

/-- **The row of a place** below a shape at a path. -/
structure RowOf (s : Shape) (above : Text) (place : List Step) (row : Row) : Prop where
  path : row.path = pathTo above place
  shape : s.node? place = some row.shape
  required : ∃ front step parent, place = front ++ [step] ∧ s.node? front = some parent ∧
    row.required = parent.requiresStep step

/-- **One place comes before another**: it lies above the other, or the two part at an object whose
properties come in this order. -/
inductive Precedes : Shape → List Step → List Step → Prop
  | ancestor {s : Shape} {step : Step} {rest : List Step} : Precedes s [] (step :: rest)
  | inside {s t : Shape} {step : Step} {p q : List Step} (h : s.below? step = some t)
    (hrest : Precedes t p q) : Precedes s (step :: p) (step :: q)
  | beside {s : Shape} {a b : Text} {p q : List Step}
    (h : List.Sublist [a, b] (Entries.names s.fields)) :
    Precedes s (.property a :: p) (.property b :: q)

/-- **The names of the properties are distinct** and hold no signs that paths are made with. -/
structure PlainlyNamed (s : Shape) : Prop where
  nodup : (Entries.names s.fields).Nodup
  plain : ∀ name ∈ Entries.names s.fields, ('.' : CodePoint) ∉ name ∧ ('[' : CodePoint) ∉ name

/-! ## Steps -/

theorem below?_property (hk : s.kind = .object) (name : Text) :
    s.below? (.property name) = Entries.get? s.fields name := if_pos hk

theorem below?_elements (hk : s.kind = .array) : s.below? .elements = s.items := if_pos hk

theorem kind_of_below? (h : s.below? step = some t) : s.kind = step.kind := by
  unfold below? at h
  split at h
  · assumption
  · cases h

theorem child_of_below? (h : s.below? step = some t) : s.child step = some t := by
  unfold below? at h
  split at h
  · exact h
  · cases h

/-- What holds everywhere holds everywhere below. -/
theorem Everywhere.of_below? {p : Shape → Prop} (h : s.Everywhere p) (ht : s.below? step = some t) :
    t.Everywhere p := by
  have hchild := child_of_below? ht
  cases step with
  | property name => exact h.field _ (Entries.mem_of_get? hchild)
  | elements => exact h.element t hchild

theorem isSome_node?_cons : (s.node? (step :: place)).isSome = true ↔
    ∃ t, s.below? step = some t ∧ (t.node? place).isSome = true := by
  rw [node?]
  cases s.below? step <;> simp

/-! ## Shape by shape -/

theorem IsBare.below? (h : s.IsBare) (step : Step) : s.below? step = none := by
  cases hb : s.below? step with
  | none => rfl
  | some t =>
    have hkind := kind_of_below? hb
    have hchild := child_of_below? hb
    cases step with
    | property name =>
      have hr := h.1
      rw [Bool.eq_false_iff, Ne, isRecord_iff] at hr
      exact absurd ⟨hkind, List.ne_nil_of_mem (Entries.mem_of_get? hchild)⟩ hr
    | elements =>
      have hnone : s.items = none := h.2 hkind
      rw [child, hnone] at hchild
      cases hchild

theorem IsBare.places (h : s.IsBare) : s.places = [] := by
  obtain ⟨kind, properties, required, items, nullable⟩ := s
  obtain ⟨hr, hi⟩ := h
  cases kind with
  | object =>
    cases properties <;>
      simp_all [Shape.places, placesOfProperties, placesOfFields, isRecord, fields]
  | array => simp_all [Shape.places, placesOfItems]
  | null | string | number | boolean => rfl

theorem places_of_array (hk : s.kind = .array) (hi : s.items = some t) :
    s.places = [.elements] :: t.places.map (.elements :: ·) := by
  cases s
  cases hk
  cases hi
  rfl

theorem places_of_record (h : s.isRecord = true) : s.places = placesOfFields s.fields := by
  obtain ⟨hk, -⟩ := isRecord_iff.1 h
  obtain ⟨kind, properties, required, items, nullable⟩ := s
  cases hk
  cases properties <;> rfl

theorem mem_placesOfFields_iff {fs : List (Text × Shape)} : place ∈ placesOfFields fs ↔
    ∃ f ∈ fs, ∃ rest, place = .property f.1 :: rest ∧ (rest = [] ∨ rest ∈ f.2.places) := by
  induction fs with
  | nil => simp [placesOfFields]
  | cons f rest ih =>
    rw [placesOfFields, List.mem_cons, List.mem_append, List.mem_map, ih]
    constructor
    · rintro (rfl | ⟨p, hp, rfl⟩ | ⟨g, hg, hplace⟩)
      · exact ⟨f, List.mem_cons_self, [], rfl, .inl rfl⟩
      · exact ⟨f, List.mem_cons_self, p, rfl, .inr hp⟩
      · exact ⟨g, List.mem_cons_of_mem _ hg, hplace⟩
    · rintro ⟨g, hg, p, rfl, hp⟩
      rcases List.mem_cons.1 hg with rfl | hg
      · rcases hp with rfl | hp
        · exact .inl rfl
        · exact .inr (.inl ⟨p, hp, rfl⟩)
      · exact .inr (.inr ⟨g, hg, p, rfl, hp⟩)

/-- What lies one step below an array. -/
theorem below?_array_iff (hk : s.kind = .array) (hi : s.items = some t) {u : Shape} :
    s.below? step = some u ↔ step = .elements ∧ u = t := by
  constructor
  · intro h
    have hkind := kind_of_below? h
    rw [hk] at hkind
    cases step with
    | property name => cases hkind
    | elements =>
      rw [below?_elements hk, hi] at h
      exact ⟨rfl, (Option.some.inj h).symm⟩
  · rintro ⟨rfl, rfl⟩
    rw [below?_elements hk, hi]

/-- What lies one step below an object. -/
theorem below?_object_iff (hk : s.kind = .object) (hs : (Entries.names s.fields).Nodup)
    {u : Shape} : s.below? step = some u ↔ ∃ f ∈ s.fields, step = .property f.1 ∧ u = f.2 := by
  constructor
  · intro h
    have hkind := kind_of_below? h
    rw [hk] at hkind
    cases step with
    | elements => cases hkind
    | property name =>
      rw [below?_property hk] at h
      exact ⟨_, Entries.mem_of_get? h, rfl, rfl⟩
  · rintro ⟨f, hf, rfl, rfl⟩
    rw [below?_property hk]
    exact (Entries.get?_eq_some_iff hs).2 hf

/-! ## The places of the listing -/

theorem not_mem_places_nil : [] ∉ s.places := by
  induction s using records_induction with
  | bare s hb => simp [hb.places]
  | array s t hk hi ih => simp [places_of_array hk hi]
  | record s hr ih =>
    rw [places_of_record hr, mem_placesOfFields_iff]
    rintro ⟨f, hf, rest, h, -⟩
    cases h

/-- The first step of a place, and what lies behind it. -/
theorem cons_mem_places_iff (hs : s.PlainlyNamed) : step :: place ∈ s.places ↔
    ∃ t, s.below? step = some t ∧ (place = [] ∨ place ∈ t.places) := by
  cases s using records_induction with
  | bare s hb => simp [hb.places, hb.below?]
  | array s t hk hi ih =>
    simp only [places_of_array hk hi, below?_array_iff hk hi, List.mem_cons, List.mem_map]
    constructor
    · rintro (h | ⟨p, hp, h⟩)
      · cases h
        exact ⟨t, ⟨rfl, rfl⟩, .inl rfl⟩
      · cases h
        exact ⟨t, ⟨rfl, rfl⟩, .inr hp⟩
    · rintro ⟨_, ⟨rfl, rfl⟩, rfl | hp⟩
      · exact .inl rfl
      · exact .inr ⟨place, hp, rfl⟩
  | record s hr ih =>
    simp only [places_of_record hr, mem_placesOfFields_iff,
      below?_object_iff (isRecord_iff.1 hr).1 hs.nodup]
    constructor
    · rintro ⟨f, hf, rest, h, hrest⟩
      cases h
      exact ⟨f.2, ⟨f, hf, rfl, rfl⟩, hrest⟩
    · rintro ⟨_, ⟨f, hf, rfl, rfl⟩, hplace⟩
      exact ⟨f, hf, place, rfl, hplace⟩

/-- **The places of a shape are those where something is.** -/
theorem mem_places_iff (hs : s.Everywhere PlainlyNamed) :
    place ∈ s.places ↔ place ≠ [] ∧ (s.node? place).isSome = true := by
  induction place generalizing s with
  | nil => simp [not_mem_places_nil]
  | cons step rest ih =>
    rw [cons_mem_places_iff hs.here, isSome_node?_cons]
    constructor
    · rintro ⟨t, ht, rfl | hrest⟩
      · exact ⟨List.cons_ne_nil _ _, t, ht, rfl⟩
      · exact ⟨List.cons_ne_nil _ _, t, ht, ((ih (hs.of_below? ht)).1 hrest).2⟩
    · rintro ⟨-, t, ht, hrest⟩
      refine ⟨t, ht, ?_⟩
      by_cases hnil : rest = []
      · exact .inl hnil
      · exact .inr ((ih (hs.of_below? ht)).2 ⟨hnil, hrest⟩)

/-- A step comes before the places behind it. -/
theorem precedes_inside (h : s.below? step = some t) (hq : q ∈ t.places.map (step :: ·)) :
    s.Precedes [step] q := by
  obtain ⟨p, hp, rfl⟩ := List.mem_map.1 hq
  have hne : p ≠ [] := fun hnil => not_mem_places_nil (hnil ▸ hp)
  obtain ⟨first, rest, rfl⟩ := List.exists_cons_of_ne_nil hne
  exact .inside h .ancestor

/-- The properties of an object, or of some that come in the same order, are listed in order. -/
theorem pairwise_placesOfFields (hk : s.kind = .object) (hs : s.PlainlyNamed)
    {fs : List (Text × Shape)} (hfs : fs.Sublist s.fields)
    (ih : ∀ f ∈ fs, f.2.places.Pairwise f.2.Precedes) :
    (placesOfFields fs).Pairwise s.Precedes := by
  induction fs with
  | nil => exact .nil
  | cons f rest ihfs =>
    rw [List.forall_mem_cons] at ih
    have hf : s.below? (.property f.1) = some f.2 :=
      (below?_object_iff hk hs.nodup).2 ⟨f, hfs.subset List.mem_cons_self, rfl, rfl⟩
    have hrest := ihfs ((List.sublist_cons_self f rest).trans hfs) ih.2
    -- everything at or below the first property comes before the others
    have hbeside : ∀ p, ∀ q ∈ placesOfFields rest, s.Precedes (.property f.1 :: p) q := by
      intro p q hq
      obtain ⟨g, hg, q, rfl, -⟩ := mem_placesOfFields_iff.1 hq
      refine .beside (List.Sublist.trans ?_ (hfs.map Prod.fst))
      exact (List.singleton_sublist.2 (List.mem_map_of_mem hg)).cons_cons f.1
    rw [placesOfFields, List.pairwise_cons, List.pairwise_append, List.pairwise_map]
    refine ⟨fun q hq => ?_, ih.1.imp (.inside hf), hrest, fun p hp => ?_⟩
    · rcases List.mem_append.1 hq with hq | hq
      · exact precedes_inside hf hq
      · exact hbeside [] q hq
    · obtain ⟨p, -, rfl⟩ := List.mem_map.1 hp
      exact hbeside p

/-- **The places are listed in pre-order.** -/
theorem pairwise_places (hs : s.Everywhere PlainlyNamed) : s.places.Pairwise s.Precedes := by
  induction s using records_induction with
  | bare s hb =>
    rw [hb.places]
    exact .nil
  | array s t hk hi ih =>
    have ht : s.below? .elements = some t := (below?_array_iff hk hi).2 ⟨rfl, rfl⟩
    rw [places_of_array hk hi, List.pairwise_cons, List.pairwise_map]
    exact ⟨fun p hp => precedes_inside ht hp, (ih (hs.of_below? ht)).imp (.inside ht)⟩
  | record s hr ih =>
    rw [places_of_record hr]
    exact pairwise_placesOfFields (isRecord_iff.1 hr).1 hs.here (List.Sublist.refl _)
      fun f hf => ih f hf (hs.field f hf)

theorem Precedes.ne (hs : s.Everywhere PlainlyNamed) (h : s.Precedes p q) : p ≠ q := by
  induction h with
  | ancestor => exact nofun
  | inside ht _ ih =>
    intro heq
    exact ih (hs.of_below? ht) (List.cons.inj heq).2
  | beside hsub =>
    intro heq
    cases heq
    exact List.nodup_iff_sublist.1 hs.here.nodup _ hsub

/-- No place is listed twice. -/
theorem nodup_places (hs : s.Everywhere PlainlyNamed) : s.places.Nodup :=
  (pairwise_places hs).imp (Precedes.ne hs)

/-! ## The rows of the places -/

/-- The row one step below a shape. -/
theorem rowOf_step (h : s.below? step = some t) :
    s.RowOf above [step] ⟨step.path above, t, s.requiresStep step⟩ where
  path := rfl
  shape := by simp [node?, h]
  required := ⟨[], step, s, rfl, rfl, rfl⟩

/-- A row below what lies one step below a shape. -/
theorem RowOf.inside {row : Row} (h : s.below? step = some t)
    (hrow : t.RowOf (step.path above) place row) : s.RowOf above (step :: place) row where
  path := hrow.path
  shape := by rw [node?, h, Option.bind_some, hrow.shape]
  required := by
    obtain ⟨front, last, parent, rfl, hparent, hrequired⟩ := hrow.required
    refine ⟨step :: front, last, parent, rfl, ?_, hrequired⟩
    rw [node?, h, Option.bind_some, hparent]

theorem rows_pathsOfFields (hk : s.kind = .object) (hs : s.PlainlyNamed)
    {fs : List (Text × Shape)} (hfs : ∀ f ∈ fs, f ∈ s.fields)
    (ih : ∀ f ∈ fs, ∀ above, List.Forall₂ (f.2.RowOf above) f.2.places (f.2.paths above)) :
    List.Forall₂ (s.RowOf above) (placesOfFields fs)
      (pathsOfFields above (s.required.getD []) fs) := by
  induction fs with
  | nil => exact .nil
  | cons f rest ihfs =>
    rw [List.forall_mem_cons] at hfs ih
    have hf : s.below? (.property f.1) = some f.2 :=
      (below?_object_iff hk hs.nodup).2 ⟨f, hfs.1, rfl, rfl⟩
    rw [placesOfFields, pathsOfFields]
    refine .cons (rowOf_step hf) (List.rel_append ?_ (ihfs hfs.2 ih.2))
    exact List.forall₂_map_left_iff.2 ((ih.1 _).imp fun _ _ hrow => hrow.inside hf)

/-- **Every row is that of the place it is listed for.** -/
theorem rows_paths (hs : s.Everywhere PlainlyNamed) :
    List.Forall₂ (s.RowOf above) s.places (s.paths above) := by
  induction s using records_induction generalizing above with
  | bare s hb =>
    rw [hb.places, hb.paths]
    exact .nil
  | array s t hk hi ih =>
    have ht : s.below? .elements = some t := (below?_array_iff hk hi).2 ⟨rfl, rfl⟩
    rw [places_of_array hk hi, paths_of_array hk hi]
    refine .cons (rowOf_step ht) (List.forall₂_map_left_iff.2 ?_)
    exact (ih (hs.of_below? ht)).imp fun _ _ hrow => hrow.inside ht
  | record s hr ih =>
    rw [places_of_record hr, paths_of_record hr]
    exact rows_pathsOfFields (isRecord_iff.1 hr).1 hs.here (fun _ hf => hf)
      fun f hf above => ih f hf (hs.field f hf)

/-- The rows have the paths of the places. -/
theorem map_path_paths (hs : s.Everywhere PlainlyNamed) :
    (s.paths above).map (·.path) = s.places.map (pathTo above) := by
  have hrows : List.Forall₂ (s.RowOf above) s.places (s.paths above) := rows_paths hs
  rw [← List.forall₂_eq_eq_eq, List.forall₂_map_left_iff, List.forall₂_map_right_iff]
  exact hrows.flip.imp fun _ _ hrow => hrow.path

end TypeSketch.Shape
