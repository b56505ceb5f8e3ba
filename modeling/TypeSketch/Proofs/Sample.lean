import TypeSketch.Proofs.Cover
import TypeSketch.Shape.Infer

/-!
# Shapes of JSON samples

* `Value.IsJson`: what a JSON text can denote.
* `Value.height`: how deep a value nests.
* `Shape.of`: the shape of a value, whatever its depth.
* `infer_eq`: **the shape of a sample is inferred exactly when the sample nests within the limit**,
  and is the same for every such limit.
* `inferAll_eq`: the same for several samples, whose shapes are merged.
* `formed_of`: the shape of a sample is well formed.
-/

namespace TypeSketch

namespace Value

/-- **What a JSON text denotes**: no leaf of another type, and no name twice in an object. -/
inductive IsJson : Value → Prop
  | null : IsJson .null
  | bool (b : Bool) : IsJson (.bool b)
  | number (n : Numeral) : IsJson (.number n)
  | string (t : Text) : IsJson (.string t)
  | array {elements : List Value} (h : ∀ v ∈ elements, IsJson v) : IsJson (.array elements)
  | object {members : List (Text × Value)} (hd : (Entries.names members).Nodup)
    (h : ∀ m ∈ members, IsJson m.2) : IsJson (.object members)

mutual

/-- Whether a value is what a JSON text denotes. -/
def isJson : Value → Bool
  | .array elements => elementsJson elements
  | .object members => decide (Entries.names members).Nodup && membersJson members
  | .foreign _ => false
  | _ => true

/-- Whether the elements of an array are what a JSON text denotes. -/
def elementsJson : List Value → Bool
  | [] => true
  | v :: rest => isJson v && elementsJson rest

/-- Whether the members of an object are what a JSON text denotes. -/
def membersJson : List (Text × Value) → Bool
  | [] => true
  | (_, v) :: rest => isJson v && membersJson rest

end

mutual

theorem isJson_iff : ∀ v : Value, isJson v = true ↔ IsJson v
  | .null => iff_of_true rfl .null
  | .bool b => iff_of_true rfl (.bool b)
  | .number n => iff_of_true rfl (.number n)
  | .string t => iff_of_true rfl (.string t)
  | .foreign _ => iff_of_false Bool.noConfusion nofun
  | .array elements => by
    rw [isJson, elementsJson_iff]
    exact ⟨.array, fun | .array h => h⟩
  | .object members => by
    rw [isJson, Bool.and_eq_true, decide_eq_true_eq, membersJson_iff]
    exact ⟨fun h => .object h.1 h.2, fun | .object hd h => ⟨hd, h⟩⟩

theorem elementsJson_iff : ∀ elements, elementsJson elements = true ↔ ∀ v ∈ elements, IsJson v
  | [] => by simp [elementsJson]
  | v :: rest => by
    rw [elementsJson, Bool.and_eq_true, isJson_iff v, elementsJson_iff rest, List.forall_mem_cons]

theorem membersJson_iff : ∀ members, membersJson members = true ↔ ∀ m ∈ members, IsJson m.2
  | [] => by simp [membersJson]
  | (name, v) :: rest => by
    rw [membersJson, Bool.and_eq_true, isJson_iff v, membersJson_iff rest, List.forall_mem_cons]

end

instance : DecidablePred IsJson := fun v => decidable_of_iff _ (isJson_iff v)

mutual

/-- The number of steps from a value to its deepest part. -/
def height : Value → Nat
  | .array elements => elementsHeight elements
  | .object members => membersHeight members
  | _ => 0

/-- The number of steps from an array to the deepest part of its elements. -/
def elementsHeight : List Value → Nat
  | [] => 0
  | v :: rest => max (height v + 1) (elementsHeight rest)

/-- The number of steps from an object to the deepest part of its members. -/
def membersHeight : List (Text × Value) → Nat
  | [] => 0
  | (_, v) :: rest => max (height v + 1) (membersHeight rest)

end

/-- The kind of a value. A leaf that is not JSON counts as null. -/
def kind : Value → Kind
  | .null => .null
  | .bool _ => .boolean
  | .number _ => .number
  | .string _ => .string
  | .array _ => .array
  | .object _ => .object
  | .foreign _ => .null

theorem IsJson.isNull_iff {v : Value} (h : v.IsJson) : v.isNull = true ↔ v.kind = .null := by
  cases h <;> simp [isNull, kind]

end Value

namespace Shape

mutual

/-- The shape of a value, whatever its depth. A leaf that is not JSON counts as null. -/
def of : Value → Shape
  | .null => null
  | .bool _ => { kind := .boolean }
  | .number _ => { kind := .number }
  | .string _ => { kind := .string }
  | .array elements => { kind := .array, items := some (merge (ofElements elements)) }
  | .object members =>
    { kind := .object
      properties := some (ofMembers members)
      required := Labels.ofNames? ((members.filter fun m => !m.2.isNull).map (·.1)) }
  | .foreign _ => null

/-- The shapes of the elements of an array. -/
def ofElements : List Value → List Shape
  | [] => []
  | v :: rest => of v :: ofElements rest

/-- The shapes of the members of an object. -/
def ofMembers : List (Text × Value) → List (Text × Shape)
  | [] => []
  | (name, v) :: rest => (name, of v) :: ofMembers rest

end

theorem ofElements_eq (elements : List Value) : ofElements elements = elements.map of := by
  induction elements with
  | nil => rfl
  | cons v rest ih => rw [ofElements, ih, List.map_cons]

theorem ofMembers_eq (members : List (Text × Value)) :
    ofMembers members = members.map fun m => (m.1, of m.2) := by
  induction members with
  | nil => rfl
  | cons m rest ih => rw [ofMembers, ih, List.map_cons]

variable {v : Value} {limit : Int}

/-! ## Inference within a limit -/

/-- Two steps that fail in the same way succeed together when the conditions of both hold. -/
theorem bind_ite {α β γ : Type} {p q r : Prop} [Decidable p] [Decidable q] [Decidable r] {a : α}
    {b : β} {e : Fault} (f : α → β → γ) (hr : r ↔ p ∧ q) :
    (do
      let x ← (if p then Except.ok a else .error e)
      let y ← (if q then Except.ok b else .error e)
      pure (f x y)) = if r then .ok (f a b) else .error e := by
  by_cases hp : p
  · by_cases hq : q
    · rw [if_pos hp, if_pos hq, if_pos (hr.2 ⟨hp, hq⟩)]
      rfl
    · rw [if_pos hp, if_neg hq, if_neg fun h => hq (hr.1 h).2]
      rfl
  · rw [if_neg hp, if_neg fun h => hp (hr.1 h).1]
    rfl

theorem checkDepth_eq (depth : Nat) : checkDepth (some limit) depth =
    if (depth : Int) ≤ limit then .ok () else .error (.tooDeep (some limit)) := by
  rw [checkDepth]
  by_cases h : limit < depth
  · rw [if_pos h, if_neg (by omega)]
  · rw [if_neg h, if_pos (by omega)]

/-- At any depth the shape of a value is inferred, unless it nests deeper than the limit. -/
def InfersAt (limit : Int) (v : Value) : Prop :=
  ∀ depth : Nat, inferAt (some limit) depth v =
    if (depth + v.height : Int) ≤ limit then .ok (of v) else .error (.tooDeep (some limit))

theorem inferElements_eq {elements : List Value} (h : ∀ v ∈ elements, InfersAt limit v)
    {depth : Nat} (hd : (depth : Int) ≤ limit) :
    inferElements (some limit) (depth + 1) elements =
      if (depth + Value.elementsHeight elements : Int) ≤ limit then .ok (elements.map of)
      else .error (.tooDeep (some limit)) := by
  induction elements with
  | nil => simp [inferElements, Value.elementsHeight, hd]
  | cons v rest ih =>
    rw [inferElements, h v List.mem_cons_self, ih fun w hw => h w (List.mem_cons_of_mem _ hw),
      Value.elementsHeight]
    exact bind_ite (fun s shapes => s :: shapes) (by omega)

theorem inferMembers_eq {members : List (Text × Value)} (h : ∀ m ∈ members, InfersAt limit m.2)
    {depth : Nat} (hd : (depth : Int) ≤ limit) :
    inferMembers (some limit) (depth + 1) members =
      if (depth + Value.membersHeight members : Int) ≤ limit
      then .ok (members.map fun m => (m.1, of m.2)) else .error (.tooDeep (some limit)) := by
  induction members with
  | nil => simp [inferMembers, Value.membersHeight, hd]
  | cons m rest ih =>
    rw [inferMembers, h m List.mem_cons_self, ih fun w hw => h w (List.mem_cons_of_mem _ hw),
      Value.membersHeight]
    exact bind_ite (fun s fields => (m.1, s) :: fields) (by omega)

theorem infersAt_of_isJson (hv : v.IsJson) : InfersAt limit v := by
  induction hv with
  | null | bool | number | string =>
    intro depth
    rw [inferAt, checkDepth_eq, Value.height]
    · by_cases hd : (depth : Int) ≤ limit <;> simp [hd, ofLeaf, of, bind, Except.bind]
    all_goals simp
  | @array elements _ ih =>
    intro depth
    rw [inferAt, checkDepth_eq, Value.height, of, ofElements_eq]
    -- the depth of the array itself counts when it is too deep or has no elements
    by_cases hd : (depth : Int) ≤ limit
    · rw [inferElements_eq ih hd]
      exact bind_ite (fun _ shapes => ({ kind := .array, items := some (merge shapes) } : Shape))
        (by omega)
    · rw [if_neg hd, if_neg (by omega)]
      rfl
  | @object members _ _ ih =>
    intro depth
    rw [inferAt, checkDepth_eq, Value.height, of, ofMembers_eq]
    by_cases hd : (depth : Int) ≤ limit
    · rw [inferMembers_eq ih hd]
      exact bind_ite (fun _ fields => ({
        kind := .object
        properties := some fields
        required := Labels.ofNames? ((members.filter fun m => !m.2.isNull).map (·.1)) } : Shape))
        (by omega)
    · rw [if_neg hd, if_neg (by omega)]
      rfl

/-- **The shape of a sample is inferred exactly when the sample nests within the limit.** -/
theorem infer_eq (hv : v.IsJson) (limit : Int) : infer (some limit) v =
    if (v.height : Int) ≤ limit then .ok (of v) else .error (.tooDeep (some limit)) := by
  rw [infer, infersAt_of_isJson hv 0]
  simp

theorem inferAt_none (depth : Nat) (v : Value) : inferAt none depth v = .error .noDepthLimit := by
  cases v <;> rfl

theorem mapM_infer {samples : List Value} (hj : ∀ v ∈ samples, v.IsJson) (limit : Int) :
    samples.mapM (infer (some limit)) =
      if ∀ v ∈ samples, (v.height : Int) ≤ limit then .ok (samples.map of)
      else .error (.tooDeep (some limit)) := by
  induction samples with
  | nil => simp [pure, Except.pure]
  | cons v rest ih =>
    rw [List.mapM_cons, infer_eq (hj v List.mem_cons_self),
      ih fun w hw => hj w (List.mem_cons_of_mem _ hw)]
    exact bind_ite (fun s shapes => s :: shapes) List.forall_mem_cons

/-- **Samples have a shape in common exactly when all of them nest within the limit.** It is merged
from the shapes of the samples. -/
theorem inferAll_eq {samples : List Value} (hj : ∀ v ∈ samples, v.IsJson) (h0 : samples ≠ [])
    (limit : Int) :
    inferAll (some limit) samples =
      if ∀ v ∈ samples, (v.height : Int) ≤ limit then .ok (merge (samples.map of))
      else .error (.tooDeep (some limit)) := by
  have hne : (samples.map of).isEmpty = false := by simpa using h0
  rw [inferAll, mapM_infer hj]
  by_cases hh : ∀ v ∈ samples, (v.height : Int) ≤ limit
  · rw [if_pos hh, if_pos hh]
    simp only [bind, Except.bind, hne]
    rfl
  · rw [if_neg hh, if_neg hh]
    rfl

/-- What was inferred from several samples is merged from their shapes. -/
theorem eq_of_inferAll {limit : Option Int} {samples : List Value} {s : Shape}
    (hj : ∀ v ∈ samples, v.IsJson) (h : inferAll limit samples = .ok s) :
    s = merge (samples.map of) := by
  cases samples with
  | nil => cases h
  | cons v rest =>
    cases limit with
    | none =>
      -- without a limit no sample has a shape
      rw [inferAll, List.mapM_cons, infer, inferAt_none] at h
      cases h
    | some limit =>
      rw [inferAll_eq hj (List.cons_ne_nil _ _)] at h
      split at h
      · cases h
        rfl
      · cases h

/-! ## The shape of a sample -/

theorem kind_of (v : Value) : (of v).kind = v.kind := by cases v <;> rfl

theorem nullable_of (v : Value) : (of v).nullable = false := by cases v <;> rfl

theorem fields_of_object (members : List (Text × Value)) :
    (of (.object members)).fields = members.map fun m => (m.1, of m.2) := by
  rw [of, fields, Option.getD_some, ofMembers_eq]

theorem items_of_array (elements : List Value) :
    (of (.array elements)).items = some (merge (elements.map of)) := by
  rw [of, ofElements_eq]

theorem requires_of_object {members : List (Text × Value)} (hd : (Entries.names members).Nodup)
    {name : Text} : (of (.object members)).requires name = true ↔
      ∃ v, Entries.get? members name = some v ∧ v.isNull = false := by
  rw [of, requires, Labels.mem_ofNames?]
  simp only [List.mem_map, List.mem_filter, Entries.get?_eq_some_iff hd, Bool.not_eq_true',
    Prod.exists, exists_and_right, exists_eq_right]

/-- The shape of a sample is well formed. -/
theorem formed_of (hv : v.IsJson) : (of v).Formed := by
  induction hv with
  | null => exact .null
  | bool | number | string => exact .scalar rfl
  | array _ ih =>
    rw [of, ofElements_eq]
    exact .array (formed_merge (List.forall_mem_map.2 ih))
  | @object members hd _ ih =>
    rw [of, ofMembers_eq]
    refine .object (by rwa [Entries.names_map]) (List.forall_mem_map.2 ih) fun name hn => ?_
    rw [Entries.names_map]
    obtain ⟨m, hm, rfl⟩ := List.mem_map.1 hn
    exact List.mem_map_of_mem (List.mem_filter.1 hm).1

end Shape

end TypeSketch
