import TypeSketch.Proofs.RequiredNames
import TypeSketch.Shape.Record

/-!
# Shapes read back from their records

A record leaves out what a shape does not say, and reading takes what is left out for nothing.

* `Entries.present`, `Shape.recordParts`: a record is a table of parts, of which the present ones
  are written.
* `read_toRecord`: **a shape that requires names everywhere is read back as it was**, with the order
  of properties at every node.
* `requiresLabels_ofRecord`: whatever is read requires a set of labels at every node.
* `ofRecord_toRecord`: reading undoes writing, for everything that is inferred, merged, or read from
  a record that lists names.
-/

namespace TypeSketch

/-! ## Tables of optional parts -/

namespace Entries

variable {α : Type} {name : Text}

/-- The parts of a table that are present. -/
def present (parts : Entries (Option α)) : Entries α :=
  parts.filterMap fun p => p.2.map fun a => (p.1, a)

/-- A look-up among the parts that are present finds what the table has. -/
theorem get?_present {parts : Entries (Option α)} (hd : (names parts).Nodup) :
    get? (present parts) name = (get? parts name).join := by
  induction parts with
  | nil => rfl
  | cons p rest ih =>
    obtain ⟨n, part⟩ := p
    rw [names, List.map_cons, List.nodup_cons] at hd
    have ih := ih hd.2
    rw [get?_cons]
    cases part with
    | none =>
      have hskip : present ((n, none) :: rest) = present rest := rfl
      rw [hskip, ih]
      by_cases hn : n = name
      · have hnone : get? rest name = none := get?_eq_none_iff.2 (hn ▸ hd.1)
        simp [hn, hnone]
      · simp [hn]
    | some a =>
      have hkeep : present ((n, some a) :: rest) = (n, a) :: present rest := rfl
      rw [hkeep, get?_cons, ih]
      by_cases hn : n = name <;> simp [hn]

end Entries

/-! ## Sets of names -/

namespace Labels

/-- Labels that are names are the labels of some names. -/
theorem exists_names {labels : List Label} (h : ∀ a ∈ labels, ∃ t, a = .name t) :
    ∃ names : List Text, labels = names.map .name := by
  induction labels with
  | nil => exact ⟨[], rfl⟩
  | cons a rest ih =>
    rw [List.forall_mem_cons] at h
    obtain ⟨⟨t, rfl⟩, hrest⟩ := h
    obtain ⟨names, rfl⟩ := ih hrest
    exact ⟨t :: names, rfl⟩

/-- A set of names is its own increasing list. -/
theorem ofList_of_increasing {labels : List Label} (h : Increasing labels) :
    ofList labels = labels := by
  obtain ⟨names, hnames⟩ := exists_names h.named
  have hlist : Increasing (ofList labels) := hnames ▸ increasing_ofList names
  exact hlist.eq_of_mem_iff h fun _ => mem_ofList

theorem ofList_ne_nil {labels : List Label} (h : labels ≠ []) : ofList labels ≠ [] := by
  obtain ⟨a, ha⟩ := List.exists_mem_of_ne_nil _ h
  exact List.ne_nil_of_mem (mem_ofList.2 ha)

end Labels

namespace Shape

variable {s : Shape}

/-! ## Writing -/

/-- What a record has under its names, in their order. -/
def recordParts (s : Shape) : Entries (Option Value) :=
  [("type", some (.string s.kind.name)),
   ("properties", s.properties.map fun fields => .object (fieldRecords fields)),
   ("required", s.required.bind fun labels =>
      if labels.isEmpty then none else some (.array (labels.map labelValue))),
   ("items", s.items.map toRecord),
   ("nullable", if s.nullable then some (.bool true) else none)]

/-- **A record is the table of what is present.** -/
theorem toRecord_eq (s : Shape) : s.toRecord = .object (Entries.present s.recordParts) := by
  obtain ⟨kind, properties, required, items, nullable⟩ := s
  rw [toRecord]
  rcases properties with _ | fields <;> rcases required with _ | _ | ⟨a, rest⟩ <;>
    rcases items with _ | t <;> cases nullable <;> rfl

theorem nodup_recordParts (s : Shape) : (Entries.names s.recordParts).Nodup := by
  have hnames : Entries.names s.recordParts =
      ["type", "properties", "required", "items", "nullable"].map Text.ofString := rfl
  rw [hnames]
  decide

/-- What a record has under a name. -/
theorem get?_record (s : Shape) (name : Text) :
    Entries.get? (Entries.present s.recordParts) name = (Entries.get? s.recordParts name).join :=
  Entries.get?_present (nodup_recordParts s)

/-! ## Reading -/

/-- The properties are read from what a record has under that name. -/
theorem propertiesOf_eq (members : List (Text × Value)) : propertiesOf members =
    match Entries.get? members "properties" with
    | none | some .null => .ok none
    | some (.object fields) => some <$> fieldsOf fields
    | some _ => .error .propertiesNotObject := by
  induction members with
  | nil => rfl
  | cons m rest ih =>
    obtain ⟨name, v⟩ := m
    rw [Entries.get?_cons]
    by_cases hn : name = "properties"
    · cases v <;> simp [propertiesOf, hn]
    · cases v <;> simp [propertiesOf, hn, ih]

/-- The elements are read from what a record has under that name. -/
theorem itemsOf_eq (members : List (Text × Value)) : itemsOf members =
    match Entries.get? members "items" with
    | none | some .null => .ok none
    | some v => some <$> ofRecord v := by
  induction members with
  | nil => rfl
  | cons m rest ih =>
    obtain ⟨name, v⟩ := m
    rw [Entries.get?_cons]
    by_cases hn : name = "items"
    · cases v <;> simp [itemsOf, hn]
    · cases v <;> simp [itemsOf, hn, ih]

theorem fieldsOf_fieldRecords {fields : List (Text × Shape)}
    (h : ∀ f ∈ fields, ofRecord f.2.toRecord = .ok f.2) :
    fieldsOf (fieldRecords fields) = .ok fields := by
  induction fields with
  | nil => rfl
  | cons f rest ih =>
    rw [List.forall_mem_cons] at h
    rw [fieldRecords, fieldsOf, h.1, ih h.2]
    rfl

theorem label?_labelValue (labels : List Label) :
    (labels.map labelValue).mapM label? = some labels := by
  have hlabel : label? ∘ labelValue = fun a => pure a := by
    funext a
    cases a <;> rfl
  rw [List.mapM_map, hlabel, List.mapM_pure]
  simp

theorem kindOf_record (s : Shape) : kindOf (Entries.present s.recordParts) = .ok s.kind := by
  have hget : (Entries.get? s.recordParts "type").join = some (.string s.kind.name) := rfl
  rw [kindOf, get?_record, hget]
  simp only [Kind.ofName?_name]

theorem propertiesOf_record (h : ∀ f ∈ s.fields, ofRecord f.2.toRecord = .ok f.2) :
    propertiesOf (Entries.present s.recordParts) = .ok s.properties := by
  have hget : (Entries.get? s.recordParts "properties").join =
      s.properties.map fun fields => .object (fieldRecords fields) := rfl
  rw [propertiesOf_eq, get?_record, hget]
  cases hp : s.properties with
  | none => rfl
  | some fields =>
    have hfields : fieldsOf (fieldRecords fields) = .ok fields := by
      apply fieldsOf_fieldRecords
      simpa [Shape.fields, hp] using h
    simp only [Option.map_some, hfields]
    rfl

/-- An empty set would be read as a missing one, and a list in another order as a sorted one. -/
theorem requiredOf_record (h : s.RequiresNames) :
    requiredOf (Entries.present s.recordParts) = .ok s.required := by
  have hget : (Entries.get? s.recordParts "required").join = s.required.bind fun labels =>
      if labels.isEmpty then none else some (.array (labels.map labelValue)) := rfl
  obtain ⟨names, hnames⟩ := h
  rw [requiredOf, get?_record, hget, hnames]
  by_cases hne : names = []
  · rw [hne]
    rfl
  · rw [Labels.ofNames?_of_ne_nil hne, Option.bind_some]
    have hsame := Labels.ofList_of_increasing (Labels.increasing_ofList names)
    have hmap : names.map Label.name ≠ [] := by simpa using hne
    have hlist : (Labels.ofList (names.map .name)).isEmpty = false := by
      simpa using Labels.ofList_ne_nil hmap
    generalize Labels.ofList (names.map .name) = labels at hsame hlist
    have htruthy : (Value.array (labels.map labelValue)).isTruthy = true := by
      rw [Value.isTruthy, List.isEmpty_map, hlist]
      rfl
    simp only [hlist, htruthy, Bool.false_eq_true, if_false, if_true, label?_labelValue,
      Labels.ofList?, hsame]

theorem itemsOf_record (h : ∀ t, s.items = some t → ofRecord t.toRecord = .ok t) :
    itemsOf (Entries.present s.recordParts) = .ok s.items := by
  have hget : (Entries.get? s.recordParts "items").join = s.items.map toRecord := rfl
  rw [itemsOf_eq, get?_record, hget]
  cases hi : s.items with
  | none => rfl
  | some t =>
    have ht := h t hi
    rw [toRecord_eq] at ht
    simp only [Option.map_some, toRecord_eq, ht]
    rfl

theorem nullableOf_record (s : Shape) :
    nullableOf (Entries.present s.recordParts) = s.nullable := by
  have hget : (Entries.get? s.recordParts "nullable").join =
      if s.nullable then some (.bool true) else none := rfl
  rw [nullableOf, get?_record, hget]
  cases s.nullable <;> rfl

/-- **A shape that requires names everywhere is read back as it was.** -/
theorem read_toRecord (h : s.Everywhere RequiresNames) : ofRecord s.toRecord = .ok s := by
  induction h with
  | @node s hnames _ _ hfields hitems =>
    rw [toRecord_eq, ofRecord, kindOf_record, propertiesOf_record hfields,
      requiredOf_record hnames, itemsOf_record hitems, nullableOf_record]
    cases s
    rfl

/-! ## What is read -/

/-- All required labels are names. -/
def ListsNames (s : Shape) : Prop := ∀ a ∈ s.required.getD [], ∃ t, a = .name t

/-- The set of required labels is missing, or it is not empty and in order. -/
def RequiresLabels (s : Shape) : Prop := ∃ labels : List Label, s.required = Labels.ofList? labels

theorem requiresNames_of_lists (h : s.RequiresLabels) (hs : s.ListsNames) : s.RequiresNames := by
  obtain ⟨labels, hlabels⟩ := h
  by_cases hne : labels = []
  · exact ⟨[], by rw [hlabels, hne]; rfl⟩
  have hset : s.required = some (Labels.ofList labels) := by
    rw [hlabels, Labels.ofList?, if_neg (by simpa using hne)]
  have hnames : ∀ a ∈ labels, ∃ t, a = .name t := by
    intro a ha
    apply hs
    rw [hset]
    exact Labels.mem_ofList.2 ha
  obtain ⟨names, rfl⟩ := Labels.exists_names hnames
  exact ⟨names, hlabels⟩

/-- Whatever a record lists, a set of labels is read. -/
theorem exists_of_requiredOf {members : List (Text × Value)} {required : Option (List Label)}
    (h : requiredOf members = .ok required) : ∃ labels, required = Labels.ofList? labels := by
  unfold requiredOf at h
  split at h
  · cases h
    exact ⟨[], rfl⟩
  split at h
  · split at h
    · split at h
      · cases h
        exact ⟨_, rfl⟩
      · cases h
    · cases h
      exact ⟨_, rfl⟩
    · cases h
      exact ⟨_, rfl⟩
    · cases h
  · cases h
    exact ⟨[], rfl⟩

mutual

/-- A shape that was read requires a set of labels at every node. -/
theorem requiresLabels_ofRecord : ∀ (v : Value) (s : Shape), ofRecord v = .ok s →
    s.Everywhere RequiresLabels
  | .object members, s, h => by
    rw [ofRecord] at h
    obtain ⟨kind, -, h⟩ := exists_of_bind_ok h
    obtain ⟨properties, hproperties, h⟩ := exists_of_bind_ok h
    obtain ⟨required, hrequired, h⟩ := exists_of_bind_ok h
    obtain ⟨items, hitems, h⟩ := exists_of_bind_ok h
    cases h
    exact .node (exists_of_requiredOf hrequired)
      (requiresLabels_propertiesOf members properties hproperties)
      (requiresLabels_itemsOf members items hitems)
  | .null, _, h => by cases h
  | .bool _, _, h => by cases h
  | .number _, _, h => by cases h
  | .string _, _, h => by cases h
  | .array _, _, h => by cases h
  | .foreign _, _, h => by cases h

theorem requiresLabels_propertiesOf : ∀ (members : List (Text × Value))
    (properties : Option (List (Text × Shape))), propertiesOf members = .ok properties →
    ∀ f ∈ properties.getD [], f.2.Everywhere RequiresLabels
  | [], _, h => by
    cases h
    nofun
  | (name, v) :: rest, properties, h => by
    by_cases hn : name = "properties"
    · cases v with
      | null =>
        simp only [propertiesOf, hn, if_true] at h
        cases h
        nofun
      | object members =>
        simp only [propertiesOf, hn, if_true] at h
        obtain ⟨fields, hfields, h⟩ := exists_of_bind_ok h
        cases h
        exact requiresLabels_fieldsOf members fields hfields
      | bool | number | string | array | foreign =>
        simp only [propertiesOf, hn, if_true] at h
        cases h
    · have hrest : propertiesOf rest = .ok properties := by
        cases v <;> simpa [propertiesOf, hn] using h
      exact requiresLabels_propertiesOf rest properties hrest

theorem requiresLabels_itemsOf : ∀ (members : List (Text × Value)) (items : Option Shape),
    itemsOf members = .ok items → ∀ t, items = some t → t.Everywhere RequiresLabels
  | [], _, h => by
    cases h
    nofun
  | (name, v) :: rest, items, h => by
    by_cases hn : name = "items"
    · by_cases hnull : v = .null
      · subst hnull
        simp only [itemsOf, hn, if_true] at h
        cases h
        nofun
      · have hread : (some <$> ofRecord v) = .ok items := by
          cases v <;> simp_all [itemsOf]
        obtain ⟨s, hs, h⟩ := exists_of_bind_ok hread
        cases h
        rintro t ⟨⟩
        exact requiresLabels_ofRecord v s hs
    · have hrest : itemsOf rest = .ok items := by
        cases v <;> simpa [itemsOf, hn] using h
      exact requiresLabels_itemsOf rest items hrest

theorem requiresLabels_fieldsOf : ∀ (members : List (Text × Value))
    (fields : List (Text × Shape)), fieldsOf members = .ok fields →
    ∀ f ∈ fields, f.2.Everywhere RequiresLabels
  | [], _, h => by
    cases h
    nofun
  | (name, v) :: rest, fields, h => by
    rw [fieldsOf] at h
    obtain ⟨s, hs, h⟩ := exists_of_bind_ok h
    obtain ⟨others, hothers, h⟩ := exists_of_bind_ok h
    cases h
    exact List.forall_mem_cons.2
      ⟨requiresLabels_ofRecord v s hs, requiresLabels_fieldsOf rest others hothers⟩

end

/-! ## Both ways -/

/-- **Reading undoes writing.** A shape, of whatever kinds and however nested, is read back from its
record as it was, with empty properties told from missing ones and the properties at every node in
their order, if the set of required labels is missing at every node, or not empty and a set of
names. This is so of every shape that any steps of inferring and merging obtain, also from such
shapes, and of every shape that is read from a record and lists names only. -/
theorem ofRecord_toRecord :
    (∀ s : Shape, s.Everywhere RequiresNames → ofRecord s.toRecord = .ok s) ∧
    (∀ (pool : List Shape) (acts : List Act), (∀ s ∈ pool, s.Everywhere RequiresNames) →
      ∀ s ∈ run pool acts, s.Everywhere RequiresNames) ∧
    ∀ (v : Value) (s : Shape), ofRecord v = .ok s → s.Everywhere ListsNames →
      s.Everywhere RequiresNames := by
  refine ⟨fun s h => read_toRecord h, fun pool acts hp => requiresNames_run hp, ?_⟩
  intro v s hs hlists
  exact (requiresLabels_ofRecord v s hs).imp_of hlists fun _ => requiresNames_of_lists

/-- A text with elements, empty properties among its properties, and required names that it does not
have. -/
def oddShape : Shape :=
  { kind := .string
    properties := some [("b", { kind := .object, properties := some [], nullable := true }),
      ("a", { kind := .object })]
    required := some [.name "a", .name "z"]
    items := some null }

theorem ofRecord_toRecord_oddShape :
    oddShape.Everywhere RequiresNames ∧ ofRecord oddShape.toRecord = .ok oddShape := by
  have hnames : oddShape.Everywhere RequiresNames := by
    refine .node ⟨["z", "a", "z"], by decide⟩ (fun f hf => ?_) fun t ht => ?_
    · simp only [oddShape, fields, Option.getD_some, List.mem_cons, List.not_mem_nil,
        or_false] at hf
      rcases hf with rfl | rfl
      · exact .of_leaf ⟨[], rfl⟩ rfl rfl
      · exact .of_leaf ⟨[], rfl⟩ rfl rfl
    · cases ht
      exact .of_leaf ⟨[], rfl⟩ rfl rfl
  exact ⟨hnames, ofRecord_toRecord.1 oddShape hnames⟩

end Shape

end TypeSketch
