import TypeSketch.Proofs.Pieces
import TypeSketch.Proofs.Places

/-!
# Paths and the places they stand for

Where no name holds a dot or an opening bracket, the path of a row tells its place, but for the
empty name at the top: its path is empty, which is the path of the root, so that what lies below it
is listed under the same paths as what lies next to it.

* `flatMap_suffix_inj`: the steps are told from what they add to a path.
* `pathTo_eq_iff`: places have the same path when they are the same but for empty names in front.
* `paths_places`: **the listing has one row for each place, and the paths are distinct exactly when
  nothing below the empty name is named like something next to it.**
-/

namespace TypeSketch.Shape

variable {s t : Shape} {step : Step} {place p q : List Step} {above : Text}

/-- The step to the property with the empty name. -/
def unnamed : Step := .property []

/-- A place without the empty names in front. -/
def stripped (place : List Step) : List Step := place.dropWhile fun step => step = unnamed

/-- **Something below the empty name is named like something next to it.** -/
def Clashes (s : Shape) : Prop :=
  ∃ t name, s.below? unnamed = some t ∧ (t.below? (.property name)).isSome = true ∧
    (s.below? (.property name)).isSome = true

/-! ## Equal paths -/

/-- What a step adds to a path that is not empty. -/
def Step.suffix : Step → Text
  | .property name => "." ++ name
  | .elements => "[]"

/-- The name of a step holds no signs that paths are made with. -/
def Step.Plain : Step → Prop
  | .property name => ('.' : CodePoint) ∉ name ∧ ('[' : CodePoint) ∉ name
  | .elements => True

theorem Step.path_of_ne_nil (h : above ≠ []) (step : Step) :
    step.path above = above ++ step.suffix := by
  cases step with
  | property name =>
    rw [path, propertyPath, if_neg (by simpa using h), suffix, List.append_assoc]
  | elements => rfl

theorem Step.path_ne_nil (h : step ≠ unnamed) : step.path [] ≠ [] := by
  cases step with
  | property name =>
    rintro (hname : name = [])
    exact h (hname ▸ rfl)
  | elements => exact List.cons_ne_nil _ _

theorem pathTo_of_ne_nil (h : above ≠ []) (place : List Step) :
    pathTo above place = above ++ place.flatMap Step.suffix := by
  induction place generalizing above with
  | nil => exact (List.append_nil above).symm
  | cons step rest ih =>
    have hpath := Step.path_of_ne_nil h step
    have hne : step.path above ≠ [] := by
      rw [hpath]
      exact List.append_ne_nil_of_left_ne_nil h _
    rw [List.flatMap_cons, ← List.append_assoc, ← hpath, ← ih hne]
    rfl

theorem stripped_unnamed_cons (place : List Step) :
    stripped (unnamed :: place) = stripped place :=
  List.dropWhile_cons_of_pos (p := fun step => decide (step = unnamed)) (decide_eq_true rfl)

theorem stripped_eq_self (h : ∀ step ∈ place.head?, step ≠ unnamed) : stripped place = place := by
  cases place with
  | nil => rfl
  | cons step rest => exact List.dropWhile_cons_of_neg (by simpa using h)

theorem ne_unnamed_of_mem_head?_stripped (place : List Step) :
    ∀ step ∈ (stripped place).head?, step ≠ unnamed := by
  intro step hstep
  have hhead := List.head?_dropWhile_not (fun step => decide (step = unnamed)) place
  rw [← stripped, hstep] at hhead
  exact of_decide_eq_false hhead

/-- The empty name at the top leaves the path empty. -/
theorem pathTo_stripped (place : List Step) : pathTo [] (stripped place) = pathTo [] place := by
  induction place with
  | nil => rfl
  | cons step rest ih =>
    by_cases h : step = unnamed
    · rw [h, stripped_unnamed_cons, ih]
      rfl
    · rw [stripped_eq_self (by simpa using h)]

/-- What a plain name is followed by tells where it ends. -/
theorem cut_name {a b : Text} (ha : (Step.property a).Plain) (hb : (Step.property b).Plain)
    (h : a ++ p.flatMap Step.suffix = b ++ q.flatMap Step.suffix) :
    a = b ∧ p.flatMap Step.suffix = q.flatMap Step.suffix := by
  have hplain : ∀ name : Text, (Step.property name).Plain →
      ∀ c ∈ name, (c ≠ ('.' : CodePoint) && c ≠ ('[' : CodePoint)) = true := by
    rintro name ⟨hdot, hbracket⟩ c hc
    simpa using ⟨ne_of_mem_of_not_mem hc hdot, ne_of_mem_of_not_mem hc hbracket⟩
  have hhead : ∀ place : List Step, ∀ c ∈ (place.flatMap Step.suffix).head?,
      (c ≠ ('.' : CodePoint) && c ≠ ('[' : CodePoint)) = false := by
    rintro (_ | ⟨name | _, rest⟩) c hc
    · cases hc
    · cases hc
      rfl
    · cases hc
      rfl
  exact Text.append_inj_of_class (hplain a ha) (hplain b hb) (hhead p) (hhead q) h

/-- The steps are told from what they add to a path. -/
theorem flatMap_suffix_inj (hp : ∀ step ∈ p, step.Plain) (hq : ∀ step ∈ q, step.Plain)
    (h : p.flatMap Step.suffix = q.flatMap Step.suffix) : p = q := by
  induction p generalizing q with
  | nil =>
    cases q with
    | nil => rfl
    | cons step q => cases step <;> cases h
  | cons a p ih =>
    cases q with
    | nil => cases a <;> cases h
    | cons b q =>
      rw [List.forall_mem_cons] at hp hq
      rw [List.flatMap_cons, List.flatMap_cons] at h
      cases a with
      | property a =>
        cases b with
        | property b =>
          obtain ⟨rfl, hrest⟩ := cut_name hp.1 hq.1 (List.cons.inj h).2
          rw [ih hp.2 hq.2 hrest]
        | elements => exact absurd (List.cons.inj h).1 (by decide)
      | elements =>
        cases b with
        | property b => exact absurd (List.cons.inj h).1 (by decide)
        | elements => rw [ih hp.2 hq.2 (List.append_cancel_left h)]

/-- The path of a property that has a name is not that of something in the elements. -/
theorem name_append_ne_elements {name x y : Text} (h : (Step.property name).Plain)
    (hname : name ≠ []) : name ++ x ≠ itemsPath [] ++ y := by
  obtain ⟨c, name, rfl⟩ := List.exists_cons_of_ne_nil hname
  intro heq
  exact h.2 (List.mem_cons.2 (.inl (List.cons.inj heq).1.symm))

/-- Places that do not begin with the empty name are told from their paths. -/
theorem pathTo_inj (hp : ∀ step ∈ p, step.Plain) (hq : ∀ step ∈ q, step.Plain)
    (hpn : ∀ step ∈ p.head?, step ≠ unnamed) (hqn : ∀ step ∈ q.head?, step ≠ unnamed)
    (h : pathTo [] p = pathTo [] q) : p = q := by
  have hcons : ∀ step rest, step ≠ unnamed →
      pathTo [] (step :: rest) = step.path [] ++ rest.flatMap Step.suffix :=
    fun step rest hstep => pathTo_of_ne_nil (Step.path_ne_nil hstep) rest
  have hempty : ∀ step rest, step ≠ unnamed → pathTo [] (step :: rest) ≠ [] := by
    intro step rest hstep
    rw [hcons step rest hstep]
    exact List.append_ne_nil_of_left_ne_nil (Step.path_ne_nil hstep) _
  cases p with
  | nil =>
    cases q with
    | nil => rfl
    | cons b q => exact absurd h.symm (hempty b q (hqn b rfl))
  | cons a p =>
    cases q with
    | nil => exact absurd h (hempty a p (hpn a rfl))
    | cons b q =>
      have han := hpn a rfl
      have hbn := hqn b rfl
      rw [hcons a p han, hcons b q hbn] at h
      rw [List.forall_mem_cons] at hp hq
      cases a with
      | property a =>
        cases b with
        | property b =>
          obtain ⟨rfl, hrest⟩ := cut_name hp.1 hq.1 h
          rw [flatMap_suffix_inj hp.2 hq.2 hrest]
        | elements => exact absurd h (name_append_ne_elements hp.1 (Step.path_ne_nil han))
      | elements =>
        cases b with
        | property b =>
          exact absurd h.symm (name_append_ne_elements hq.1 (Step.path_ne_nil hbn))
        | elements => rw [flatMap_suffix_inj hp.2 hq.2 (List.append_cancel_left h)]

/-- **Places have the same path when they are the same but for empty names in front.** -/
theorem pathTo_eq_iff (hp : ∀ step ∈ p, step.Plain) (hq : ∀ step ∈ q, step.Plain) :
    pathTo [] p = pathTo [] q ↔ stripped p = stripped q := by
  rw [← pathTo_stripped p, ← pathTo_stripped q]
  have hplain : ∀ {place : List Step}, (∀ step ∈ place, step.Plain) →
      ∀ step ∈ stripped place, step.Plain :=
    fun h step hstep => h step ((List.dropWhile_sublist _).subset hstep)
  exact ⟨pathTo_inj (hplain hp) (hplain hq) (ne_unnamed_of_mem_head?_stripped p)
    (ne_unnamed_of_mem_head?_stripped q), congrArg (pathTo [])⟩

theorem plain_of_mem_places (hs : s.Everywhere PlainlyNamed) (h : place ∈ s.places) :
    ∀ step ∈ place, step.Plain := by
  induction place generalizing s with
  | nil => nofun
  | cons step rest ih =>
    obtain ⟨t, ht, hrest⟩ := (cons_mem_places_iff hs.here).1 h
    refine List.forall_mem_cons.2 ⟨?_, ?_⟩
    · cases step with
      | property name =>
        exact hs.here.plain name (List.mem_map_of_mem (Entries.mem_of_get? (child_of_below? ht)))
      | elements => trivial
    · rcases hrest with rfl | hrest
      · exact nofun
      · exact ih (hs.of_below? ht) hrest

/-- Where nothing clashes, what lies one step below the empty name does not lie next to it. -/
theorem below?_eq_none (hc : ¬ s.Clashes) (ht : s.below? unnamed = some t)
    (h : (t.below? step).isSome = true) : s.below? step = none := by
  cases step with
  | property name =>
    rw [← Option.not_isSome_iff_eq_none]
    exact fun hname => hc ⟨t, name, ht, h, hname⟩
  | elements =>
    refine if_neg fun hk => ?_
    rw [kind_of_below? ht] at hk
    cases hk

/-- Where nothing clashes, a place begins with at most one empty name, and what lies behind it is
not a place. -/
theorem stripped_of_not_clashes (hs : s.Everywhere PlainlyNamed) (hc : ¬ s.Clashes)
    (h : place ∈ s.places) :
    place = unnamed :: stripped place ∧ stripped place ∉ s.places ∨ place = stripped place := by
  cases place with
  | nil => exact absurd h not_mem_places_nil
  | cons step rest =>
    by_cases hstep : step = unnamed
    · subst hstep
      left
      obtain ⟨t, ht, hrest⟩ := (cons_mem_places_iff hs.here).1 h
      -- behind the empty name the place goes on with a step that the root does not have
      have hnext : ∀ first ∈ rest.head?, s.below? first = none := by
        rintro first hfirst
        obtain ⟨others, rfl⟩ := List.head?_eq_some_iff.1 hfirst
        have hmem := hrest.resolve_left (List.cons_ne_nil _ _)
        obtain ⟨u, hu, -⟩ := (cons_mem_places_iff (hs.of_below? ht).here).1 hmem
        exact below?_eq_none hc ht (hu ▸ rfl)
      have hstripped : stripped rest = rest := by
        refine stripped_eq_self fun first hfirst heq => ?_
        rw [heq] at hfirst
        exact absurd (hnext _ hfirst) (ht ▸ Option.some_ne_none t)
      rw [stripped_unnamed_cons, hstripped]
      refine ⟨rfl, fun hmem => ?_⟩
      cases rest with
      | nil => exact not_mem_places_nil hmem
      | cons first others =>
        obtain ⟨u, hu, -⟩ := (cons_mem_places_iff hs.here).1 hmem
        exact absurd (hnext first rfl) (hu ▸ Option.some_ne_none u)
    · right
      exact (stripped_eq_self (by simpa using hstep)).symm

/-- **The paths are distinct exactly when nothing clashes.** -/
theorem nodup_map_path_iff (hs : s.Everywhere PlainlyNamed) :
    (s.places.map (pathTo [])).Nodup ↔ ¬ s.Clashes := by
  rw [List.nodup_map_iff_inj_on (nodup_places hs)]
  constructor
  · rintro hinj ⟨t, name, ht, htname, hname⟩
    obtain ⟨u, hu⟩ := Option.isSome_iff_exists.1 hname
    have hnext : [.property name] ∈ s.places :=
      (cons_mem_places_iff hs.here).2 ⟨u, hu, .inl rfl⟩
    have hinside : [unnamed, .property name] ∈ s.places := by
      obtain ⟨v, hv⟩ := Option.isSome_iff_exists.1 htname
      refine (cons_mem_places_iff hs.here).2 ⟨t, ht, .inr ?_⟩
      exact (cons_mem_places_iff (hs.of_below? ht).here).2 ⟨v, hv, .inl rfl⟩
    cases hinj _ hinside _ hnext rfl
  · intro hc p hp q hq hpath
    rw [pathTo_eq_iff (plain_of_mem_places hs hp) (plain_of_mem_places hs hq)] at hpath
    -- places that are the same but for empty names in front have equally many of them
    rcases stripped_of_not_clashes hs hc hp with ⟨hp', hpn⟩ | hp'
    · rcases stripped_of_not_clashes hs hc hq with ⟨hq', -⟩ | hq'
      · rw [hp', hq', hpath]
      · rw [hpath, ← hq'] at hpn
        exact absurd hq hpn
    · rcases stripped_of_not_clashes hs hc hq with ⟨-, hqn⟩ | hq'
      · rw [← hpath, ← hp'] at hqn
        exact absurd hp hqn
      · rw [hp', hq', hpath]

/-- **The listing has one row for each place.** The rows are those of the places one by one, the
places are those where something lies below the root, each once and in pre-order, and the paths are
distinct exactly when nothing below the empty name is named like something next to it. -/
theorem paths_places (hs : s.Everywhere PlainlyNamed) :
    List.Forall₂ (s.RowOf []) s.places (s.paths []) ∧ s.places.Nodup ∧
      (∀ place, place ∈ s.places ↔ place ≠ [] ∧ (s.node? place).isSome = true) ∧
      s.places.Pairwise s.Precedes ∧
      (((s.paths []).map (·.path)).Nodup ↔ ¬ s.Clashes) :=
  ⟨rows_paths hs, nodup_places hs, fun _ => mem_places_iff hs, pairwise_places hs,
    map_path_paths hs ▸ nodup_map_path_iff hs⟩

/-- An object with some shape under the empty name and a text next to it. -/
def besideUnnamed (inner : Shape) : Shape :=
  { kind := .object, properties := some [([], inner), ("a", { kind := .string })] }

theorem plainlyNamed_besideUnnamed (h : t.Everywhere PlainlyNamed) :
    (besideUnnamed t).Everywhere PlainlyNamed := by
  have hnames : Entries.names (besideUnnamed t).fields = [[], "a"] := rfl
  refine .node ⟨hnames ▸ by decide, hnames ▸ by decide⟩ ?_ nofun
  refine List.forall_mem_cons.2 ⟨h, List.forall_mem_cons.2 ⟨?_, nofun⟩⟩
  exact .of_leaf ⟨by decide, by decide⟩ rfl rfl

/-- The elements of an array under the empty name have a path of their own. -/
theorem paths_places_besideUnnamed :
    let s := besideUnnamed { kind := .array, items := some { kind := .number } }
    s.Everywhere PlainlyNamed ∧ [unnamed, .elements] ∈ s.places ∧
      ((s.paths []).map (·.path)).Nodup := by
  intro s
  have hs : s.Everywhere PlainlyNamed := by
    refine plainlyNamed_besideUnnamed (.node ⟨by decide, by decide⟩ nofun fun t ht => ?_)
    cases ht
    exact .of_leaf ⟨by decide, by decide⟩ rfl rfl
  obtain ⟨-, -, hmem, -, hpaths⟩ := paths_places hs
  refine ⟨hs, (hmem _).2 ⟨List.cons_ne_nil _ _, rfl⟩, hpaths.2 ?_⟩
  rintro ⟨t, name, ht, hname, -⟩
  cases ht
  cases hname

/-- **Two places may have the same path**: a property next to the empty name, and one below it. -/
theorem not_nodup_paths_besideUnnamed :
    let s := besideUnnamed { kind := .object, properties := some [("a", { kind := .number })] }
    s.Everywhere PlainlyNamed ∧ (s.paths []).map (·.path) = ["", "a", "a"] ∧
      ¬ ((s.paths []).map (·.path)).Nodup := by
  intro s
  refine ⟨plainlyNamed_besideUnnamed (.node ⟨by decide, by decide⟩ ?_ nofun), rfl, by decide⟩
  exact List.forall_mem_cons.2 ⟨.of_leaf ⟨by decide, by decide⟩ rfl rfl, nofun⟩

end TypeSketch.Shape
