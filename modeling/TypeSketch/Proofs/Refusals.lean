import TypeSketch.Proofs.Failing
import TypeSketch.Proofs.Names
import TypeSketch.Shape.Record

/-!
# The first fault of a record

A record is read part by part: its kind first, then the records under its properties in their
order, then the labels that it requires, and the record of its elements last. The first part that is
refused decides by what reading fails, wherever it lies and whatever is wrong behind it.

* `Value.Acceptable`: **the records that are read**, told from what they hold under each name.
* `Check`, `Check.fault?`: a part that is looked at, and what it is refused for.
* `Value.checks`: the parts of a record in the order in which they are looked at.
* `faultOf_ofRecord`: **reading fails by the first part that is refused.**
* `acceptable_iff`: a record is acceptable when no part of it is refused.
* `ofRecord_checks`: which records are read, and by what the others fail.
-/

namespace TypeSketch

/-! ## Acceptable records -/

namespace Value

/-- Whether a value is the name of a kind. -/
def namesKind : Value → Bool
  | .string t => (Kind.all.map Kind.name).contains t
  | _ => false

/-- Whether a value is neither an array nor an object. -/
def isLeaf : Value → Bool
  | .null | .bool _ | .number _ | .string _ => true
  | .array _ | .object _ | .foreign _ => false

/-- Whether a value is a collection of labels: a text of its code points, an object of its names,
and an array of its elements when all of them are leaves. -/
def collectsLabels : Value → Bool
  | .string _ | .object _ => true
  | .array elements => elements.all isLeaf
  | .null | .bool _ | .number _ | .foreign _ => false

/-- Whether a value can tell what is required: it counts as absent, or it collects labels. -/
def listsLabels (v : Value) : Bool := !v.isTruthy || v.collectsLabels

/-- **The records that are read**: objects that name a kind, whose properties and elements, unless
they are missing or null, are an object of such records and such a record, and whose required
labels, unless they are missing, are listed. -/
inductive Acceptable : Value → Prop
  | object {members : List (Text × Value)}
    (kind : ∃ v, Entries.get? members "type" = some v ∧ v.namesKind = true)
    (properties : ∀ v, Entries.get? members "properties" = some v →
      v = .null ∨ ∃ fields, v = .object fields)
    (fields : ∀ fields, Entries.get? members "properties" = some (.object fields) →
      ∀ f ∈ fields, Acceptable f.2)
    (required : ∀ v, Entries.get? members "required" = some v → v.listsLabels = true)
    (items : ∀ v, Entries.get? members "items" = some v → v ≠ .null → Acceptable v) :
    Acceptable (.object members)

end Value

/-! ## Parts that are looked at -/

/-- A part of a record that is looked at. -/
inductive Check where
  /-- What stands in the place of a record. -/
  | record (given : Value)
  /-- What a record has under `type`. -/
  | kind (given : Option Value)
  /-- What a record has under `properties`. -/
  | properties (given : Value)
  /-- What a record has under `required`. -/
  | required (given : Option Value)

/-- What a part is refused for. -/
def Check.fault? : Check → Option Fault
  | record (.object _) => none
  | record _ => some .recordNotObject
  | kind none => some .missingKind
  | kind (some v) => if v.namesKind then none else some (.unknownKind v)
  | properties .null => none
  | properties (.object _) => none
  | properties _ => some .propertiesNotObject
  | required none => none
  | required (some v) => if v.listsLabels then none else some .requiredNotLabels

/-- What the first of some parts that is refused is refused for. -/
def Check.first (checks : List Check) : Option Fault := checks.findSome? Check.fault?

namespace Value

mutual

/-- The parts of a record in the order in which they are looked at. -/
def checks : Value → List Check
  | .object members =>
    .record (.object members) :: .kind (Entries.get? members "type") ::
      (propertiesChecks members ++
        .required (Entries.get? members "required") :: itemsChecks members)
  | v => [.record v]

/-- The parts of what a record has under `properties`. -/
def propertiesChecks : List (Text × Value) → List Check
  | [] => []
  | (name, v) :: rest =>
    if name = "properties" then
      .properties v :: match v with
        | .object fields => fieldsChecks fields
        | _ => []
    else propertiesChecks rest

/-- The parts of what a record has under `items`. -/
def itemsChecks : List (Text × Value) → List Check
  | [] => []
  | (name, v) :: rest =>
    if name = "items" then
      match v with
      | .null => []
      | v => checks v
    else itemsChecks rest

/-- The parts of some records. -/
def fieldsChecks : List (Text × Value) → List Check
  | [] => []
  | (_, v) :: rest => checks v ++ fieldsChecks rest

end

end Value

namespace Check

variable {cs ds : List Check} {c : Check}

theorem first_cons (c : Check) (cs : List Check) : first (c :: cs) = c.fault?.or (first cs) := by
  unfold first
  rw [List.findSome?_cons]
  cases c.fault? <;> rfl

theorem first_append (cs ds : List Check) : first (cs ++ ds) = (first cs).or (first ds) :=
  List.findSome?_append

theorem first_eq_none_iff : first cs = none ↔ ∀ c ∈ cs, c.fault? = none :=
  List.findSome?_eq_none_iff

/-- The first fault is that of a part with nothing refused in front of it. -/
theorem first_eq_some_iff {f : Fault} : first cs = some f ↔
    ∃ before c after, cs = before ++ c :: after ∧ (∀ b ∈ before, b.fault? = none) ∧
      c.fault? = some f := by
  unfold first
  rw [List.findSome?_eq_some_iff]
  constructor
  · rintro ⟨before, c, after, hcs, hf, hbefore⟩
    exact ⟨before, c, after, hcs, hbefore, hf⟩
  · rintro ⟨before, c, after, hcs, hbefore, hf⟩
    exact ⟨before, c, after, hcs, hf, hbefore⟩

end Check

/-! ## What steps fail by -/

section FaultOf

variable {α β : Type}

/-- What something fails by, if it does. -/
def faultOf : Except Fault α → Option Fault
  | .ok _ => none
  | .error f => some f

theorem faultOf_eq_none_iff {x : Except Fault α} : faultOf x = none ↔ ∃ a, x = .ok a := by
  cases x <;> simp [faultOf]

theorem faultOf_eq_some_iff {x : Except Fault α} {f : Fault} :
    faultOf x = some f ↔ x = .error f := by
  cases x <;> simp [faultOf]

/-- Of two steps in a row, the fault of the first one counts. -/
theorem faultOf_bind {x : Except Fault α} {k : α → Except Fault β} {f? : Option Fault}
    (h : ∀ a, faultOf (k a) = f?) : faultOf (x >>= k) = (faultOf x).or f? := by
  cases x with
  | error f => rfl
  | ok a => exact h a

theorem faultOf_map (g : α → β) (x : Except Fault α) : faultOf (g <$> x) = faultOf x := by
  cases x <;> rfl

end FaultOf

namespace Shape

variable {members : List (Text × Value)}

theorem isSome_ofName? (t : Text) : (Kind.ofName? t).isSome = (Value.string t).namesKind := by
  rw [Bool.eq_iff_iff, Kind.ofName?, List.find?_isSome, Value.namesKind, List.contains_iff_mem,
    List.mem_map]
  simp only [decide_eq_true_eq]

theorem faultOf_kindOf (members : List (Text × Value)) :
    faultOf (kindOf members) = (Check.kind (Entries.get? members "type")).fault? := by
  unfold kindOf
  cases Entries.get? members "type" with
  | none => rfl
  | some given =>
    cases given with
    | string t =>
      have hname := isSome_ofName? t
      dsimp only
      rw [Check.fault?, ← hname]
      cases Kind.ofName? t <;> rfl
    | _ => rfl

/-- An array lists labels when its elements are leaves. -/
theorem isSome_mapM_label? (elements : List Value) :
    (elements.mapM label?).isSome = elements.all Value.isLeaf := by
  induction elements with
  | nil => rfl
  | cons v rest ih =>
    rw [List.all_cons, ← ih, List.mapM_cons]
    cases v with
    | null | bool | number | string => cases rest.mapM label? <;> rfl
    | array | object | foreign => rfl

theorem faultOf_requiredOf (members : List (Text × Value)) :
    faultOf (requiredOf members) = (Check.required (Entries.get? members "required")).fault? := by
  unfold requiredOf
  cases Entries.get? members "required" with
  | none => rfl
  | some given =>
    dsimp only
    rw [Check.fault?]
    by_cases htruthy : given.isTruthy = true
    · have hlists : given.listsLabels = given.collectsLabels := by
        rw [Value.listsLabels, htruthy, Bool.not_true, Bool.false_or]
      rw [if_pos htruthy, hlists]
      cases given with
      | array elements =>
        rw [Value.collectsLabels, ← isSome_mapM_label?]
        dsimp only
        cases elements.mapM label? <;> rfl
      | _ => rfl
    · have hlists : given.listsLabels = true := by
        rw [Value.listsLabels, Bool.eq_false_iff.2 htruthy, Bool.not_false, Bool.true_or]
      rw [if_neg htruthy, if_pos hlists]
      rfl

mutual

/-- **Reading fails by the first part that is refused.** -/
theorem faultOf_ofRecord : ∀ v : Value, faultOf (ofRecord v) = Check.first v.checks
  | .object members => by
    rw [ofRecord, Value.checks, Check.first_cons, Check.first_cons, Check.first_append,
      Check.first_cons, ← faultOf_kindOf, ← faultOf_requiredOf, ← faultOf_propertiesOf members,
      ← faultOf_itemsOf members]
    refine faultOf_bind fun kind => faultOf_bind fun properties => faultOf_bind fun required => ?_
    have hitems := faultOf_map (fun items : Option Shape =>
      ({ kind, properties, required, items, nullable := nullableOf members } : Shape))
      (itemsOf members)
    exact hitems
  | .null => rfl
  | .bool _ => rfl
  | .number _ => rfl
  | .string _ => rfl
  | .array _ => rfl
  | .foreign _ => rfl

theorem faultOf_propertiesOf : ∀ members : List (Text × Value),
    faultOf (propertiesOf members) = Check.first (Value.propertiesChecks members)
  | [] => rfl
  | (name, v) :: rest => by
    by_cases hn : name = "properties"
    · cases v with
      | object fields =>
        simp only [propertiesOf, Value.propertiesChecks, hn, if_true]
        rw [faultOf_map, faultOf_fieldsOf fields]
        rfl
      | null | bool | number | string | array | foreign =>
        simp only [propertiesOf, Value.propertiesChecks, hn, if_true]
        rfl
    · have hread : propertiesOf ((name, v) :: rest) = propertiesOf rest := by
        cases v <;> simp [propertiesOf, hn]
      have hchecks : Value.propertiesChecks ((name, v) :: rest) = Value.propertiesChecks rest := by
        cases v <;> simp [Value.propertiesChecks, hn]
      rw [hread, hchecks]
      exact faultOf_propertiesOf rest

theorem faultOf_itemsOf : ∀ members : List (Text × Value),
    faultOf (itemsOf members) = Check.first (Value.itemsChecks members)
  | [] => rfl
  | (name, v) :: rest => by
    by_cases hn : name = "items"
    · by_cases hnull : v = .null
      · subst hnull
        simp only [itemsOf, Value.itemsChecks, hn, if_true]
        rfl
      · have hread : itemsOf ((name, v) :: rest) = some <$> ofRecord v := by
          cases v <;> simp_all [itemsOf]
        have hchecks : Value.itemsChecks ((name, v) :: rest) = v.checks := by
          cases v <;> simp_all [Value.itemsChecks]
        rw [hread, hchecks, faultOf_map]
        exact faultOf_ofRecord v
    · have hread : itemsOf ((name, v) :: rest) = itemsOf rest := by
        cases v <;> simp [itemsOf, hn]
      have hchecks : Value.itemsChecks ((name, v) :: rest) = Value.itemsChecks rest := by
        cases v <;> simp [Value.itemsChecks, hn]
      rw [hread, hchecks]
      exact faultOf_itemsOf rest

theorem faultOf_fieldsOf : ∀ members : List (Text × Value),
    faultOf (fieldsOf members) = Check.first (Value.fieldsChecks members)
  | [] => rfl
  | (name, v) :: rest => by
    rw [fieldsOf, Value.fieldsChecks, Check.first_append, ← faultOf_ofRecord v,
      ← faultOf_fieldsOf rest]
    exact faultOf_bind fun s => faultOf_map (fun fields => (name, s) :: fields) (fieldsOf rest)

end

end Shape

/-! ## Parts and look-ups -/

namespace Check

variable {given : Option Value}

/-- None of some parts is refused. -/
def Passes (cs : List Check) : Prop := ∀ c ∈ cs, c.fault? = none

theorem kind_passes_iff :
    (kind given).fault? = none ↔ ∃ v, given = some v ∧ v.namesKind = true := by
  cases given with
  | none => simp [fault?]
  | some v => simp [fault?]

theorem required_passes_iff :
    (required given).fault? = none ↔ ∀ v, given = some v → v.listsLabels = true := by
  cases given with
  | none => simp [fault?]
  | some v => simp [fault?]

end Check

namespace Value

open Check (Passes)

variable {members : List (Text × Value)}

/-- What is looked at under `properties` is what a record has under that name. -/
theorem propertiesChecks_eq (members : List (Text × Value)) : propertiesChecks members =
    match Entries.get? members "properties" with
    | none => []
    | some (.object fields) => .properties (.object fields) :: fieldsChecks fields
    | some v => [.properties v] := by
  induction members with
  | nil => rfl
  | cons m rest ih =>
    obtain ⟨name, v⟩ := m
    rw [Entries.get?_cons]
    by_cases hn : name = "properties"
    · cases v <;> simp [propertiesChecks, hn]
    · cases v <;> simp [propertiesChecks, hn, ih]

/-- What is looked at under `items` is what a record has under that name. -/
theorem itemsChecks_eq (members : List (Text × Value)) : itemsChecks members =
    match Entries.get? members "items" with
    | none | some .null => []
    | some v => v.checks := by
  induction members with
  | nil => rfl
  | cons m rest ih =>
    obtain ⟨name, v⟩ := m
    rw [Entries.get?_cons]
    by_cases hn : name = "items"
    · cases v <;> simp [itemsChecks, hn]
    · cases v <;> simp [itemsChecks, hn, ih]

theorem fieldsChecks_eq (fields : List (Text × Value)) :
    fieldsChecks fields = fields.flatMap fun f => f.2.checks := by
  induction fields with
  | nil => rfl
  | cons f rest ih => rw [fieldsChecks, ih, List.flatMap_cons]

theorem passes_fieldsChecks_iff {fields : List (Text × Value)} :
    Passes (fieldsChecks fields) ↔ ∀ f ∈ fields, Passes f.2.checks := by
  rw [fieldsChecks_eq]
  unfold Passes
  exact List.forall_mem_flatMap

theorem passes_propertiesChecks_iff : Passes (propertiesChecks members) ↔
    (∀ v, Entries.get? members "properties" = some v → v = .null ∨ ∃ fields, v = .object fields) ∧
    ∀ fields, Entries.get? members "properties" = some (.object fields) →
      ∀ f ∈ fields, Passes f.2.checks := by
  rw [propertiesChecks_eq]
  cases Entries.get? members "properties" with
  | none => simp [Passes]
  | some v =>
    cases v with
    | object fields =>
      have hall : Passes (.properties (.object fields) :: fieldsChecks fields) ↔
          Passes (fieldsChecks fields) := by
        unfold Passes
        rw [List.forall_mem_cons]
        exact and_iff_right rfl
      simp [hall, passes_fieldsChecks_iff]
    | null => simp [Passes, Check.fault?]
    | bool | number | string | array | foreign => simp [Passes, Check.fault?]

theorem passes_itemsChecks_iff : Passes (itemsChecks members) ↔
    ∀ v, Entries.get? members "items" = some v → v ≠ .null → Passes v.checks := by
  rw [itemsChecks_eq]
  cases Entries.get? members "items" with
  | none => simp [Passes]
  | some v => cases v <;> simp [Passes]

/-- **No part of an object is refused** when it names a kind and nothing under its other names is
refused. -/
theorem passes_object_iff : Passes (checks (.object members)) ↔
    (∃ v, Entries.get? members "type" = some v ∧ v.namesKind = true) ∧
    ((∀ v, Entries.get? members "properties" = some v →
        v = .null ∨ ∃ fields, v = .object fields) ∧
      ∀ fields, Entries.get? members "properties" = some (.object fields) →
        ∀ f ∈ fields, Passes f.2.checks) ∧
    (∀ v, Entries.get? members "required" = some v → v.listsLabels = true) ∧
    ∀ v, Entries.get? members "items" = some v → v ≠ .null → Passes v.checks := by
  rw [← Check.kind_passes_iff, ← passes_propertiesChecks_iff, ← Check.required_passes_iff,
    ← passes_itemsChecks_iff, checks]
  unfold Passes
  rw [List.forall_mem_cons, List.forall_mem_cons, List.forall_mem_append, List.forall_mem_cons]
  exact and_iff_right rfl

theorem Acceptable.passes {d : Value} (h : d.Acceptable) : Passes d.checks := by
  induction h with
  | object kind properties _ required _ ihfields ihitems =>
    exact passes_object_iff.2 ⟨kind, ⟨properties, ihfields⟩, required, ihitems⟩

/-- What stands below an object is smaller. -/
theorem sizeOf_member_lt {m : Text × Value} (h : m ∈ members) :
    sizeOf m.2 < sizeOf (Value.object members) := by
  have hmember := List.sizeOf_lt_of_mem h
  obtain ⟨name, v⟩ := m
  rw [Prod.mk.sizeOf_spec] at hmember
  rw [Value.object.sizeOf_spec]
  dsimp only
  omega

theorem acceptable_of_passes (d : Value) (h : Passes d.checks) : d.Acceptable := by
  match d with
  | .object members =>
    obtain ⟨kind, ⟨properties, hfields⟩, required, hitems⟩ := passes_object_iff.1 h
    refine .object kind properties (fun fields hget f hf => ?_) required fun v hget hne => ?_
    · exact acceptable_of_passes f.2 (hfields fields hget f hf)
    · exact acceptable_of_passes v (hitems v hget hne)
  | .null | .bool _ | .number _ | .string _ | .array _ | .foreign _ =>
    exact absurd (h _ List.mem_cons_self) (by simp [Check.fault?])
termination_by sizeOf d
decreasing_by
  · exact (sizeOf_member_lt hf).trans (sizeOf_member_lt (Entries.mem_of_get? hget))
  · exact sizeOf_member_lt (Entries.mem_of_get? hget)

/-- **A record is acceptable when no part of it is refused.** -/
theorem acceptable_iff (d : Value) : d.Acceptable ↔ Passes d.checks :=
  ⟨Acceptable.passes, acceptable_of_passes d⟩

end Value

/-! ## Reading -/

namespace Shape

/-- **A record is read exactly when it is acceptable, and otherwise reading fails by the first part
that is refused**: of the kind, the records under the properties in their order, the required labels
and the record of the elements, the first one that has a fault, however deep it lies. Each fault is
that of its part: something that is no object in the place of a record, a kind that is missing or
unknown, properties that are no object, or required labels that are none. -/
theorem ofRecord_checks (d : Value) :
    ((∃ s, ofRecord d = .ok s) ↔ d.Acceptable) ∧
    ∀ f, ofRecord d = .error f ↔ ∃ before c after, d.checks = before ++ c :: after ∧
      (∀ b ∈ before, b.fault? = none) ∧ c.fault? = some f := by
  constructor
  · rw [← faultOf_eq_none_iff, faultOf_ofRecord, Check.first_eq_none_iff, Value.acceptable_iff]
    rfl
  · intro f
    rw [← faultOf_eq_some_iff, faultOf_ofRecord, Check.first_eq_some_iff]

/-- A property without a kind counts before labels and elements, wherever they stand. -/
example : ofRecord (.object [("items", .int 0), ("required", .int 1),
    ("properties", .object [("a", .object [])]), ("type", .string "array")]) =
      .error .missingKind := rfl

end Shape

end TypeSketch
