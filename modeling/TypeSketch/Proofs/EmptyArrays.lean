import TypeSketch.Proofs.Obtained

/-!
# Empty arrays

An empty array says nothing of its elements. It is recorded as an array with elements of null, which
is also what an array of nulls is recorded as, so that merging it with another array marks the
elements nullable although no null was seen.

* `Value.mem_under_elements`: what is observed one step below arrays, with the null of empty ones.
* `nullable_merge_of`: merged values are nullable when a null and something else was observed.
* `nullable_elements_iff`: **where no array has a null, the elements are nullable exactly when an
  empty array and one with elements were observed.**
* `nullable_elements_emptyArray`: this happens.
-/

namespace TypeSketch

open Shape (Step)

namespace Value

variable {seen : List Value} {v : Value}

/-- **What is observed one step below arrays**: their elements, and a null for an empty array. -/
theorem mem_under_elements : v ∈ under seen .elements ↔
    v = .null ∧ .array [] ∈ seen ∨ ∃ es, .array es ∈ seen ∧ v ∈ es := by
  unfold under
  rw [List.mem_flatten]
  constructor
  · rintro ⟨es, hes, hv⟩
    obtain ⟨w, hw, hwes⟩ := List.mem_filterMap.1 hes
    unfold elements? at hwes
    split at hwes
    · cases hwes
      exact .inl ⟨List.mem_singleton.1 hv, hw⟩
    · cases hwes
      exact .inr ⟨es, hw, hv⟩
    · cases hwes
  · rintro (⟨rfl, hempty⟩ | ⟨es, hes, hv⟩)
    · exact ⟨[.null], List.mem_filterMap.2 ⟨_, hempty, rfl⟩, List.mem_singleton.2 rfl⟩
    · refine ⟨es, List.mem_filterMap.2 ⟨_, hes, ?_⟩, hv⟩
      cases es with
      | nil => cases hv
      | cons => rfl

theorem observedAt_append (seen : List Value) (place rest : List Step) :
    observedAt seen (place ++ rest) = observedAt (observedAt seen place) rest :=
  List.foldl_append

end Value

namespace Shape

variable {seen samples : List Value} {s items : Shape} {place : List Step} {k : Kind}
  {limit : Option Int}

/-- Values of one kind besides null are described by a nullable shape when a null and something else
was observed. -/
theorem nullable_merge_of (hj : ∀ v ∈ seen, v.IsJson)
    (hk : ∀ v ∈ seen, v.isNull = false → v.kind = k) :
    (merge (seen.map of)).nullable = true ↔
      (∃ v ∈ seen, v.isNull = true) ∧ ∃ v ∈ seen, v.isNull = false := by
  have hsolid : ∀ v ∈ seen, v.kind ≠ .null → v.isNull = false := fun v hv hne =>
    Bool.eq_false_iff.2 fun hnull => hne ((hj v hv).isNull_iff.1 hnull)
  have hsole : ∀ {j : Kind}, Kind.Sole (Value.kinds seen) j → ∃ v ∈ seen, v.isNull = false := by
    intro j h
    obtain ⟨v, hv, hvj⟩ := List.mem_map.1 h.mem
    exact ⟨v, hv, hsolid v hv (hvj ▸ h.ne_null)⟩
  generalize ht : merge (seen.map of) = t
  have hd : Describes seen t := ht ▸ describes_merge hj
  cases hd with
  | null hall =>
    refine ⟨nofun, ?_⟩
    rintro ⟨-, v, hv, hfalse⟩
    rw [hall v hv] at hfalse
    cases hfalse
  | mixed hm =>
    obtain ⟨i, hi, j, hj', hi0, hj0, hij⟩ := hm
    obtain ⟨v, hv, rfl⟩ := List.mem_map.1 hi
    obtain ⟨w, hw, rfl⟩ := List.mem_map.1 hj'
    exact absurd ((hk v hv (hsolid v hv hi0)).trans (hk w hw (hsolid w hw hj0)).symm) hij
  | scalar h _ | array h | object h _ =>
    rw [List.any_eq_true]
    exact (and_iff_left (hsole h)).symm

/-- **Where no array has a null among its elements, and all elements are of one kind, they are
nullable exactly when both an empty array and one with elements were observed.** -/
theorem nullable_elements_iff (hv : ∀ v ∈ samples, v.Proper) (h : inferAll limit samples = .ok s)
    (hk : k ≠ .null)
    (hone : ∀ es, .array es ∈ Value.observedAt samples place → ∀ v ∈ es, v.kind = k)
    (hitems : s.at? (place ++ [.elements]) = some items) :
    items.nullable = true ↔ .array [] ∈ Value.observedAt samples place ∧
      ∃ es, es ≠ [] ∧ .array es ∈ Value.observedAt samples place := by
  have hj := isJson_of_inferAll hv h
  obtain rfl := eq_of_inferAll hj h
  obtain ⟨-, rfl⟩ := (at_merge_of hj).1 hitems
  have hjson : ∀ v ∈ Value.observedAt samples (place ++ [.elements]), v.IsJson :=
    isJson_observedAt hj
  rw [Value.observedAt_append] at hjson ⊢
  generalize Value.observedAt samples place = seen at hone hjson ⊢
  have hbelow : Value.observedAt seen [.elements] = Value.under seen .elements := rfl
  rw [hbelow] at hjson ⊢
  -- the elements themselves are not null, so that a null comes from an empty array
  have hsolid : ∀ es, .array es ∈ seen → ∀ v ∈ es, v.isNull = false := by
    intro es hes v hv
    have hvj := hjson v (Value.mem_under_elements.2 (.inr ⟨es, hes, hv⟩))
    refine Bool.eq_false_iff.2 fun hnull => hk ?_
    exact (hone es hes v hv).symm.trans (hvj.isNull_iff.1 hnull)
  rw [nullable_merge_of hjson (k := k)]
  · refine and_congr ⟨?_, fun hempty => ?_⟩ ⟨?_, ?_⟩
    · rintro ⟨v, hv, hnull⟩
      rcases Value.mem_under_elements.1 hv with ⟨-, hempty⟩ | ⟨es, hes, hves⟩
      · exact hempty
      · rw [hsolid es hes v hves] at hnull
        cases hnull
    · exact ⟨.null, Value.mem_under_elements.2 (.inl ⟨rfl, hempty⟩), rfl⟩
    · rintro ⟨v, hv, hfalse⟩
      rcases Value.mem_under_elements.1 hv with ⟨rfl, -⟩ | ⟨es, hes, hves⟩
      · cases hfalse
      · exact ⟨es, List.ne_nil_of_mem hves, hes⟩
    · rintro ⟨es, hne, hes⟩
      obtain ⟨v, hves⟩ := List.exists_mem_of_ne_nil es hne
      exact ⟨v, Value.mem_under_elements.2 (.inr ⟨es, hes, hves⟩), hsolid es hes v hves⟩
  · intro v hv hfalse
    rcases Value.mem_under_elements.1 hv with ⟨rfl, -⟩ | ⟨es, hes, hves⟩
    · cases hfalse
    · exact hone es hes v hves

/-- Two arrays of arrays below one name, of which one is empty. -/
def nestedArrays : List Value :=
  [.object [("a", .array [])], .object [("a", .array [.array [.int 1], .array [.int 2]])]]

/-- The elements of the inner arrays are not nullable, because none of these is empty. -/
theorem nullable_elements_nestedArrays :
    (∀ v ∈ nestedArrays, v.Proper) ∧ Kind.number ≠ .null ∧
      (∀ es, .array es ∈ Value.observedAt nestedArrays [.property "a", .elements] →
        ∀ v ∈ es, v.kind = .number) ∧
      ∃ s items, inferAll (some 3) nestedArrays = .ok s ∧
        s.at? [.property "a", .elements, .elements] = some items ∧ items.nullable = false := by
  have hj : ∀ v ∈ nestedArrays, v.IsJson := by decide
  have hproper : ∀ v ∈ nestedArrays, v.Proper := fun v hv => (hj v hv).proper
  have hseen : Value.observedAt nestedArrays [.property "a", .elements] =
      [.null, .array [.int 1], .array [.int 2]] := rfl
  have hone : ∀ es, .array es ∈ Value.observedAt nestedArrays [.property "a", .elements] →
      ∀ v ∈ es, v.kind = .number := by
    rw [hseen]
    rintro es hes v hv
    simp only [List.mem_cons, reduceCtorEq, Value.array.injEq, List.not_mem_nil, or_false,
      false_or] at hes
    rcases hes with rfl | rfl <;> cases List.mem_singleton.1 hv <;> rfl
  have hs := (inferAll_eq hj (by decide) 3).trans (if_pos (by decide))
  obtain ⟨hplace, -⟩ := inferAll_describes hj hs [.property "a", .elements, .elements]
  obtain ⟨items, hitems⟩ := hplace.2 (by decide)
  refine ⟨hproper, by decide, hone, _, items, hs, hitems, Bool.eq_false_iff.2 fun hnullable => ?_⟩
  have hempty := ((nullable_elements_iff hproper hs (by decide) hone hitems).1 hnullable).1
  rw [hseen] at hempty
  simp [Value.int] at hempty

/-- **An empty array makes the numbers of another array nullable**, although no array has a null. -/
theorem nullable_elements_emptyArray :
    (∀ es, .array es ∈ Value.observedAt [.array [], .array [.int 1]] [] →
      ∀ v ∈ es, v.kind = .number) ∧
      ∃ s items, inferAll (some 100) [.array [], .array [.int 1]] = .ok s ∧
        s.at? [.elements] = some items ∧ items.kind = .number ∧ items.nullable = true := by
  refine ⟨fun es hes v hv => ?_, ?_⟩
  · have hes : .array es ∈ [Value.array [], .array [.int 1]] := hes
    simp only [List.mem_cons, Value.array.injEq, List.not_mem_nil, or_false] at hes
    rcases hes with rfl | rfl
    · cases hv
    · cases List.mem_singleton.1 hv
      rfl
  · have hj : ∀ v ∈ [Value.array [], .array [.int 1]], v.IsJson := by decide
    have hs := (inferAll_eq hj (by decide) 100).trans (if_pos (by decide))
    have hfound : ((merge ([Value.array [], .array [.int 1]].map of)).at? [.elements]).map
        (fun t => (t.kind, t.nullable)) = some (.number, true) := by decide +kernel
    obtain ⟨items, hitems, hflags⟩ := Option.map_eq_some_iff.1 hfound
    exact ⟨_, items, hs, hitems, congrArg Prod.fst hflags, congrArg Prod.snd hflags⟩

end Shape

end TypeSketch
