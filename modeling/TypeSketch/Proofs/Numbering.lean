import Mathlib.Data.List.Range
import TypeSketch.Declaration
import TypeSketch.Proofs.Cover
import TypeSketch.Proofs.Naming

/-!
# Declarations without a namer

Records get their names from a namer that is handed from one shape to the next, and their
declarations are collected on the way. The same declarations come out when the records are numbered
from the root down, each in front of those below it, and every record is called after its number.

* `records`: the records at or below a shape in the order of their numbers.
* `typeFrom`, `fieldsFrom`: the type of a shape and the fields of a record, given the number of the
  first record in them.
* `declaredFrom`: the declarations of the records, each behind those of the records below it.
* `typeOf_numbered`: **the walk with the namer gives these types and declarations.**
* `records_induction`: shapes without records, arrays and records are all the shapes there are.
-/

namespace TypeSketch.Shape

/-! ## Records and their numbers -/

mutual

/-- The records at or below a shape, each in front of those below it. -/
def records : Shape → List Shape
  | ⟨kind, properties, required, items, nullable⟩ =>
    match kind with
    | .object => recordsOfProperties ⟨kind, properties, required, items, nullable⟩ properties
    | .array => recordsOfItems items
    | _ => []

/-- The records in the elements of an array. -/
def recordsOfItems : Option Shape → List Shape
  | none => []
  | some s => records s

/-- The records of an object with some properties: it is one itself if there are any. -/
def recordsOfProperties (s : Shape) : Option (List (Text × Shape)) → List Shape
  | none => []
  | some fields => if fields.isEmpty then [] else s :: recordsOfFields fields

/-- The records in some properties. -/
def recordsOfFields : List (Text × Shape) → List Shape
  | [] => []
  | (_, s) :: rest => records s ++ recordsOfFields rest

end

mutual

/-- The type of a shape whose first record has number `i`. -/
def typeFrom (name : Nat → Text) (i : Nat) : Shape → TypeExpr
  | ⟨kind, properties, _, items, nullable⟩ =>
    match kind with
    | .null => .null
    | .array => (typeFromItems name i items).withNullable nullable
    | .object =>
      (if (properties.getD []).isEmpty then TypeExpr.anyObject else .named (name i)).withNullable
        nullable
    | kind => (TypeExpr.ofKind kind).withNullable nullable

/-- The type of an array with some elements. -/
def typeFromItems (name : Nat → Text) (i : Nat) : Option Shape → TypeExpr
  | none => .anyList
  | some s => if s.kind = .null then .anyList else .list (typeFrom name i s)

end

/-- The fields of some properties, the first record in which has number `i`. -/
def fieldsFrom (useOptional : Bool) (name : Nat → Text) (required : List Label) (i : Nat) :
    List (Text × Shape) → List Field
  | [] => []
  | (key, s) :: rest =>
    ⟨key, s.kind, typeFrom name i s, isOptional useOptional required key s.kind⟩ ::
      fieldsFrom useOptional name required (i + s.records.length) rest

/-- The fields of a record, the first record below which has number `i`. -/
def recordFields (useOptional : Bool) (name : Nat → Text) (i : Nat) (s : Shape) : List Field :=
  fieldsFrom useOptional name (s.required.getD []) i s.fields

/-- The declaration of a record with number `i`. By then the names of all records below it were
handed out. -/
def recordDeclaration (useOptional : Bool) (root : Text) (i : Nat) (s : Shape) : Declaration :=
  ⟨nestedName root i, .record (recordFields useOptional (nestedName root) (i + 1) s),
    nestedNames root (i + 1 + (recordsOfFields s.fields).length)⟩

mutual

/-- The declarations of the records at or below a shape whose first record has number `i`. -/
def declaredFrom (useOptional : Bool) (root : Text) (i : Nat) : Shape → List Declaration
  | ⟨kind, properties, required, items, nullable⟩ =>
    match kind with
    | .object =>
      declaredFromProperties useOptional root i ⟨kind, properties, required, items, nullable⟩
        properties
    | .array => declaredFromItems useOptional root i items
    | _ => []

/-- The declarations of the records in the elements of an array. -/
def declaredFromItems (useOptional : Bool) (root : Text) (i : Nat) :
    Option Shape → List Declaration
  | none => []
  | some s => declaredFrom useOptional root i s

/-- The declarations of an object with some properties and of the records below it. -/
def declaredFromProperties (useOptional : Bool) (root : Text) (i : Nat) (s : Shape) :
    Option (List (Text × Shape)) → List Declaration
  | none => []
  | some fields =>
    if fields.isEmpty then []
    else declaredFromFields useOptional root (i + 1) fields ++
      [recordDeclaration useOptional root i s]

/-- The declarations of the records in some properties. -/
def declaredFromFields (useOptional : Bool) (root : Text) (i : Nat) :
    List (Text × Shape) → List Declaration
  | [] => []
  | (_, s) :: rest =>
    declaredFrom useOptional root i s ++
      declaredFromFields useOptional root (i + s.records.length) rest

end

/-! ## Shape by shape -/

variable {s t : Shape} {useOptional : Bool} {root : Text} {name : Nat → Text} {i : Nat}

theorem recordsOfFields_append (fs gs : List (Text × Shape)) :
    recordsOfFields (fs ++ gs) = recordsOfFields fs ++ recordsOfFields gs := by
  induction fs with
  | nil => rfl
  | cons f rest ih => rw [List.cons_append, recordsOfFields, recordsOfFields, ih, List.append_assoc]

/-- Every field shows a property. The number of its first record counts the records in front of
it. -/
theorem mem_fieldsFrom {required : List Label} {fs : List (Text × Shape)} {f : Field}
    (h : f ∈ fieldsFrom useOptional name required i fs) :
    ∃ before g after, fs = before ++ g :: after ∧
      f = ⟨g.1, g.2.kind, typeFrom name (i + (recordsOfFields before).length) g.2,
        isOptional useOptional required g.1 g.2.kind⟩ := by
  induction fs generalizing i with
  | nil => cases h
  | cons g rest ih =>
    rcases List.mem_cons.1 h with rfl | h
    · exact ⟨[], g, rest, rfl, rfl⟩
    · obtain ⟨before, g', after, rfl, hf⟩ := ih h
      refine ⟨g :: before, g', after, rfl, ?_⟩
      rw [hf, recordsOfFields, List.length_append, Nat.add_assoc]

theorem keys_fieldsFrom {required : List Label} (fs : List (Text × Shape)) :
    (fieldsFrom useOptional name required i fs).map (·.key) = Entries.names fs := by
  induction fs generalizing i with
  | nil => rfl
  | cons f rest ih => rw [fieldsFrom, List.map_cons, ih]; rfl

/-- A shape that is no record, and no array of anything. -/
def IsBare (s : Shape) : Prop := s.isRecord = false ∧ (s.kind = .array → s.items = none)

theorem records_of_null (h : s.kind = .null) : s.records = [] := by
  cases s
  cases h
  rfl

theorem declaredFrom_of_null (h : s.kind = .null) : declaredFrom useOptional root i s = [] := by
  cases s
  cases h
  rfl

theorem IsBare.records (h : s.IsBare) : s.records = [] := by
  obtain ⟨kind, properties, required, items, nullable⟩ := s
  obtain ⟨hr, hi⟩ := h
  cases kind with
  | object => cases properties <;> simp_all [Shape.records, recordsOfProperties, isRecord, fields]
  | array => simp_all [Shape.records, recordsOfItems]
  | null | string | number | boolean => rfl

theorem IsBare.declaredFrom (h : s.IsBare) : declaredFrom useOptional root i s = [] := by
  obtain ⟨kind, properties, required, items, nullable⟩ := s
  obtain ⟨hr, hi⟩ := h
  cases kind with
  | object =>
    cases properties <;> simp_all [Shape.declaredFrom, declaredFromProperties, isRecord, fields]
  | array => simp_all [Shape.declaredFrom, declaredFromItems]
  | null | string | number | boolean => rfl

theorem records_of_array (hk : s.kind = .array) (hi : s.items = some t) :
    s.records = t.records := by
  cases s
  cases hk
  cases hi
  rfl

theorem declaredFrom_of_array (hk : s.kind = .array) (hi : s.items = some t) :
    declaredFrom useOptional root i s = declaredFrom useOptional root i t := by
  cases s
  cases hk
  cases hi
  rfl

theorem typeFrom_of_array (hk : s.kind = .array) (hi : s.items = some t) :
    typeFrom name i s = (if t.kind = .null then TypeExpr.anyList
      else .list (typeFrom name i t)).withNullable s.nullable := by
  cases s
  cases hk
  cases hi
  rfl

theorem isRecord_iff : s.isRecord = true ↔ s.kind = .object ∧ s.fields ≠ [] := by
  simp [isRecord]

theorem records_of_record (h : s.isRecord = true) : s.records = s :: recordsOfFields s.fields := by
  obtain ⟨hk, hne⟩ := isRecord_iff.1 h
  obtain ⟨kind, properties, required, items, nullable⟩ := s
  cases hk
  cases properties with
  | none => exact absurd rfl hne
  | some fields => exact if_neg fun h => hne (List.isEmpty_iff.1 h)

theorem declaredFrom_of_record (h : s.isRecord = true) :
    declaredFrom useOptional root i s =
      declaredFromFields useOptional root (i + 1) s.fields ++
        [recordDeclaration useOptional root i s] := by
  obtain ⟨hk, hne⟩ := isRecord_iff.1 h
  obtain ⟨kind, properties, required, items, nullable⟩ := s
  cases hk
  cases properties with
  | none => exact absurd rfl hne
  | some fields => exact if_neg fun h => hne (List.isEmpty_iff.1 h)

theorem typeFrom_of_record (h : s.isRecord = true) :
    typeFrom name i s = (TypeExpr.named (name i)).withNullable s.nullable := by
  obtain ⟨hk, hne⟩ := isRecord_iff.1 h
  obtain ⟨kind, properties, required, items, nullable⟩ := s
  cases hk
  exact congrArg (TypeExpr.withNullable nullable) (if_neg fun h => hne (List.isEmpty_iff.1 h))

theorem typeFrom_of_object (h : s.kind = .object) : typeFrom name i s =
    (if s.fields = [] then TypeExpr.anyObject else .named (name i)).withNullable s.nullable := by
  obtain ⟨kind, properties, required, items, nullable⟩ := s
  cases h
  by_cases he : properties.getD [] = [] <;> simp [typeFrom, fields, he]

theorem typeFrom_of_scalar (h : s.kind.isScalar = true) :
    typeFrom name i s = (TypeExpr.ofKind s.kind).withNullable s.nullable := by
  obtain ⟨kind, properties, required, items, nullable⟩ := s
  cases kind with
  | string | number | boolean => rfl
  | object | array | null => cases h

theorem weight_le_of_mem {fields : List (Text × Shape)} {f : Text × Shape} (h : f ∈ fields) :
    f.2.weight ≤ fieldsWeight fields := by
  induction fields with
  | nil => cases h
  | cons g rest ih =>
    rw [fieldsWeight]
    rcases List.mem_cons.1 h with rfl | h
    · exact Nat.le_add_right _ _
    · exact (ih h).trans (Nat.le_add_left _ _)

/-- **Induction along records.** A property holds of all shapes when it holds of those without
records, of arrays of what it holds of, and of records whose properties it holds of. -/
theorem records_induction {motive : Shape → Prop} (bare : ∀ s : Shape, s.IsBare → motive s)
    (array : ∀ s t : Shape, s.kind = .array → s.items = some t → motive t → motive s)
    (record : ∀ s : Shape, s.isRecord = true → (∀ f ∈ s.fields, motive f.2) → motive s)
    (s : Shape) : motive s := by
  -- on the weight: an object nests its properties in a list, which no structural induction enters
  induction hw : s.weight using Nat.strong_induction_on generalizing s with
  | _ w ih =>
    subst hw
    by_cases hr : s.isRecord = true
    · refine record s hr fun f hf => ih _ ?_ _ rfl
      exact Nat.lt_of_le_of_lt (weight_le_of_mem hf) (fieldsWeight_lt s)
    by_cases hi : s.kind = .array → s.items = none
    · exact bare s ⟨by simpa using hr, hi⟩
    · obtain ⟨hk, hi⟩ := Classical.not_imp.1 hi
      obtain ⟨t, ht⟩ := Option.ne_none_iff_exists'.1 hi
      exact array s t hk ht (ih _ (weight_items_lt ht) _ rfl)

/-! ## The walk with the namer -/

mutual

/-- **The walk with the namer numbers the records.** -/
theorem typeOf_numbered (useOptional : Bool) (root : Text) :
    ∀ (s : Shape) (i : Nat) (done : List Declaration),
      typeOf useOptional s ⟨.after root i, done⟩ =
        (typeFrom (nestedName root) i s,
          ⟨.after root (i + s.records.length), (declaredFrom useOptional root i s).reverse ++ done⟩)
  | ⟨kind, properties, required, items, nullable⟩, i, done => by
    cases kind with
    | null | string | number | boolean => rfl
    | array =>
      rw [typeOf, typeOfItems_numbered]
      rfl
    | object =>
      have h := typeOfProperties_numbered useOptional root properties i done
        (s := ⟨.object, properties, required, items, nullable⟩) rfl
      rw [typeOf, h]
      rfl

/-- The walk through the elements of an array. -/
theorem typeOfItems_numbered (useOptional : Bool) (root : Text) :
    ∀ (items : Option Shape) (i : Nat) (done : List Declaration),
      typeOfItems useOptional items ⟨.after root i, done⟩ =
        (typeFromItems (nestedName root) i items,
          ⟨.after root (i + (recordsOfItems items).length),
            (declaredFromItems useOptional root i items).reverse ++ done⟩)
  | none, _, _ => rfl
  | some s, i, done => by
    rw [typeOfItems, typeFromItems, recordsOfItems, declaredFromItems]
    by_cases hk : s.kind = .null
    · rw [if_pos hk, if_pos hk, records_of_null hk, declaredFrom_of_null hk]
      rfl
    · rw [if_neg hk, if_neg hk, typeOf_numbered]

/-- The walk through an object takes a name for it before it goes on. -/
theorem typeOfProperties_numbered (useOptional : Bool) (root : Text) {s : Shape} :
    ∀ (properties : Option (List (Text × Shape))) (i : Nat) (done : List Declaration),
      s.properties = properties →
      typeOfProperties useOptional (s.required.getD []) properties ⟨.after root i, done⟩ =
        (if (properties.getD []).isEmpty then .anyObject else .named (nestedName root i),
          ⟨.after root (i + (recordsOfProperties s properties).length),
            (declaredFromProperties useOptional root i s properties).reverse ++ done⟩)
  | none, _, _, _ => rfl
  | some fs, i, done, hs => by
    rw [typeOfProperties, recordsOfProperties, declaredFromProperties, Option.getD_some]
    by_cases he : fs.isEmpty = true
    · rw [if_pos he, if_pos he, if_pos he, if_pos he]
      rfl
    · have hcount :
          i + ((recordsOfFields fs).length + 1) = i + 1 + (recordsOfFields fs).length := by
        omega
      -- the object itself takes number `i`, so the records in its properties begin at `i + 1`
      rw [if_neg he, if_neg he, if_neg he, if_neg he, Namer.next_after]
      dsimp only
      rw [fieldsOfProperties_numbered, recordDeclaration, recordFields, fields, hs,
        Option.getD_some, List.length_cons, hcount, List.reverse_append]
      rfl

/-- The walk through some properties. -/
theorem fieldsOfProperties_numbered (useOptional : Bool) (root : Text) {required : List Label} :
    ∀ (fs : List (Text × Shape)) (i : Nat) (done : List Declaration),
      fieldsOfProperties useOptional required fs ⟨.after root i, done⟩ =
        (fieldsFrom useOptional (nestedName root) required i fs,
          ⟨.after root (i + (recordsOfFields fs).length),
            (declaredFromFields useOptional root i fs).reverse ++ done⟩)
  | [], _, _ => rfl
  | (key, s) :: rest, i, done => by
    rw [fieldsOfProperties, typeOf_numbered]
    dsimp only
    rw [fieldsOfProperties_numbered, fieldsFrom, recordsOfFields, declaredFromFields,
      List.length_append, Nat.add_assoc, List.reverse_append, List.append_assoc]

end

/-! ## The declarations of a shape -/

/-- The records below a shape. -/
def recordsBelow (s : Shape) : List Shape :=
  if s.isRecord then recordsOfFields s.fields else s.records

/-- The declarations of the records below a shape. -/
def declaredBelow (useOptional : Bool) (root : Text) (s : Shape) : List Declaration :=
  if s.isRecord then declaredFromFields useOptional root 0 s.fields
  else declaredFrom useOptional root 0 s

/-- What the name of the root is declared as. -/
def rootBody (useOptional : Bool) (root : Text) (s : Shape) : Body :=
  if s.isRecord then .record (recordFields useOptional (nestedName root) 0 s)
  else .alias (typeFrom (nestedName root) 0 s)

theorem drafted_eq (useOptional : Bool) (root : Text) (s : Shape) :
    drafted useOptional root s =
      ⟨.after root s.recordsBelow.length,
        ⟨root, rootBody useOptional root s, nestedNames root s.recordsBelow.length⟩ ::
          (declaredBelow useOptional root s).reverse⟩ := by
  have hstart : ({ namer := { root } } : Draft) = ⟨.after root 0, []⟩ := rfl
  rw [drafted, rootBody, recordsBelow, declaredBelow]
  by_cases hr : s.isRecord = true
  · simp only [if_pos hr, hstart, fieldsOfProperties_numbered, Nat.zero_add, List.append_nil]
    rfl
  · simp only [if_neg hr, hstart, typeOf_numbered, Nat.zero_add, List.append_nil]
    rfl

/-- **The declarations of a shape are those of the records below it and that of the root.** -/
theorem declarations_eq (useOptional : Bool) (root : Text) (s : Shape) :
    s.declarations useOptional root = declaredBelow useOptional root s ++
      [⟨root, rootBody useOptional root s, nestedNames root s.recordsBelow.length⟩] := by
  rw [declarations, drafted_eq, List.reverse_cons, List.reverse_reverse]

/-! ## Which records are declared -/

/-- The records with their numbers, declared in the order of the numbers. -/
def recordDeclarations (useOptional : Bool) (root : Text) (i : Nat) (records : List Shape) :
    List Declaration :=
  (records.zipIdx i).map fun r => recordDeclaration useOptional root r.2 r.1

theorem recordDeclarations_append (rs ts : List Shape) :
    recordDeclarations useOptional root i (rs ++ ts) =
      recordDeclarations useOptional root i rs ++
        recordDeclarations useOptional root (i + rs.length) ts := by
  rw [recordDeclarations, List.zipIdx_append, List.map_append]
  rfl

/-- Something holds of the declarations of some records, numbered from `i`. -/
def Declared (useOptional : Bool) (root : Text) (p : Declaration → Prop) (i : Nat)
    (records : List Shape) : Prop :=
  ∀ d ∈ recordDeclarations useOptional root i records, p d

theorem declared_append {p : Declaration → Prop} {rs ts : List Shape} :
    Declared useOptional root p i (rs ++ ts) ↔ Declared useOptional root p i rs ∧
      Declared useOptional root p (i + rs.length) ts := by
  rw [Declared, recordDeclarations_append, List.forall_mem_append]
  rfl

theorem declared_cons {p : Declaration → Prop} {rs : List Shape} :
    Declared useOptional root p i (s :: rs) ↔ p (recordDeclaration useOptional root i s) ∧
      Declared useOptional root p (i + 1) rs :=
  List.forall_mem_cons

theorem declaredFromFields_perm {fs : List (Text × Shape)}
    (h : ∀ f ∈ fs, ∀ i, (declaredFrom useOptional root i f.2).Perm
      (recordDeclarations useOptional root i f.2.records)) (i : Nat) :
    (declaredFromFields useOptional root i fs).Perm
      (recordDeclarations useOptional root i (recordsOfFields fs)) := by
  induction fs generalizing i with
  | nil => exact .nil
  | cons f rest ih =>
    rw [List.forall_mem_cons] at h
    rw [declaredFromFields, recordsOfFields, recordDeclarations_append]
    exact (h.1 i).append (ih h.2 _)

/-- **The declarations are those of the numbered records, in another order.** -/
theorem declaredFrom_perm (s : Shape) (i : Nat) :
    (declaredFrom useOptional root i s).Perm (recordDeclarations useOptional root i s.records) := by
  induction s using records_induction generalizing i with
  | bare s hb => rw [hb.declaredFrom, hb.records]; exact .nil
  | array s t hk hi ih => rw [declaredFrom_of_array hk hi, records_of_array hk hi]; exact ih i
  | record s hr ih =>
    rw [declaredFrom_of_record hr, records_of_record hr]
    -- a record has the first number and the last declaration
    exact (List.perm_append_singleton _ _).trans (.cons _ (declaredFromFields_perm ih (i + 1)))

theorem declaredBelow_perm (s : Shape) :
    (declaredBelow useOptional root s).Perm
      (recordDeclarations useOptional root 0 s.recordsBelow) := by
  rw [declaredBelow, recordsBelow]
  split
  · exact declaredFromFields_perm (fun f _ => declaredFrom_perm f.2) 0
  · exact declaredFrom_perm s 0

/-- All records below a shape are declared. -/
theorem declared_below (useOptional : Bool) (root : Text) (s : Shape) :
    Declared useOptional root (· ∈ s.declarations useOptional root) 0 s.recordsBelow := by
  intro d hd
  rw [declarations_eq]
  exact List.mem_append_left _ ((declaredBelow_perm s).mem_iff.2 hd)

end TypeSketch.Shape
