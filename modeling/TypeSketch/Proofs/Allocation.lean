import TypeSketch.Proofs.Issued
import TypeSketch.Proofs.Sample
import TypeSketch.Proofs.WrittenClasses

/-!
# Attributes of classes

Every class has one attribute for each key of its object, and no attribute hides what the body of
the class refers to.

* `Allocated`: attributes for some fields, whose names differ from one another, from words that are
  reserved, and from the names handed out so far.
* `allocated_attributes`: the attributes that are written are such.
* `Shape.exists_base`: the type of a shape is null once at most.
* `Dataclass.Says`: what the line of a field has to say. A default is of the type in front of it.
* `attributes_allocated`: **the attributes of written classes are allocated**, and those of data
  classes say what they have to, the ones without defaults in front.
-/

namespace TypeSketch

variable {s : Shape} {useOptional : Bool} {root : Text} {d : Declaration} {fields : List Field}

/-! ## Names -/

/-- **Attributes for some fields**, none of which hides a reserved word, a type whose name was
handed out, or another attribute. -/
structure Allocated (reserved issued : List Text) (fields : List Field)
    (attributes : List (Text × Field)) : Prop where
  /-- There is one attribute for each field. -/
  fields_eq : attributes.map (·.2) = fields
  nodup : (attributes.map (·.1)).Nodup
  not_reserved : ∀ a ∈ attributes, a.1 ∉ reserved
  not_issued : ∀ a ∈ attributes, a.1 ∉ issued

/-- The name of a nested type does not end in an underscore. -/
theorem getLast?_nestedName (root : Text) (i : Nat) :
    (nestedName root i).getLast? ≠ some ('_' : CodePoint) := by
  obtain ⟨tail, htail, hdigits⟩ := nestedName_eq root i
  rw [htail]
  intro h
  -- what stands last is the end of the suffix or a digit
  rcases List.eq_nil_or_concat' tail with rfl | ⟨front, c, rfl⟩
  · rw [List.append_nil, List.getLast?_append_of_ne_nil _ (by decide)] at h
    exact absurd h (by decide)
  · rw [← List.append_assoc, List.getLast?_concat] at h
    cases h
    exact absurd (hdigits _ (List.mem_append_right _ List.mem_cons_self)) (by decide)

theorem getLast?_of_issued {n : Text} {before : List Declaration}
    (h : Shape.HandedOut root (Shape.drafted useOptional root s).namer.issued before d)
    (hn : n ∈ d.issued) : n.getLast? ≠ some ('_' : CodePoint) := by
  obtain ⟨i, rfl⟩ := h.exists_nestedName hn
  exact getLast?_nestedName root i

/-- **The attributes that are written are allocated**, when no word that may not be used ends in an
underscore. -/
theorem allocated_attributes {rules : AttributeRules} {reserved issued : List Text}
    (hrules : ∀ w ∈ reserved ++ issued, w ∈ rules.reserved)
    (hlast : ∀ w ∈ reserved ++ issued, w.getLast? ≠ some ('_' : CodePoint)) (fields : List Field) :
    Allocated reserved issued fields (rules.attributes fields) := by
  have hname : ∀ a ∈ rules.attributes fields, a.1 ∉ reserved ++ issued := by
    intro a ha
    obtain ⟨taken, key, hname⟩ := AttributeRules.exists_name_of_mem_attributes ha
    rw [hname]
    exact AttributeRules.name_not_mem (fun w hw => .inr (hrules w hw)) hlast
  refine ⟨AttributeRules.fields_attributes rules fields, ?_, fun a ha h => ?_, fun a ha h => ?_⟩
  · rw [AttributeRules.names_attributes]
    exact AttributeRules.nodup_names _ _ _
  · exact hname a ha (List.mem_append_left _ h)
  · exact hname a ha (List.mem_append_right _ h)

/-! ## Types -/

/-- **The type of a shape is null once at most**, and that of an array is a list. -/
theorem Shape.exists_base (name : Nat → Text) (i : Nat) (s : Shape) :
    ∃ (base : TypeExpr) (nullable : Bool), typeFrom name i s = base.withNullable nullable ∧
      base.layer ≠ .orNull ∧ (s.kind = .array → base = .anyList ∨ ∃ t, base = .list t) := by
  obtain ⟨kind, properties, required, items, nullable⟩ := s
  cases kind with
  | array =>
    cases items with
    | none => exact ⟨.anyList, nullable, rfl, by decide, fun _ => .inl rfl⟩
    | some t =>
      rw [typeFrom, typeFromItems]
      split
      · exact ⟨.anyList, nullable, rfl, by decide, fun _ => .inl rfl⟩
      · exact ⟨.list _, nullable, rfl, by rintro ⟨⟩, fun _ => .inr ⟨_, rfl⟩⟩
  | object =>
    rw [typeFrom]
    split
    · exact ⟨.anyObject, nullable, rfl, by decide, by rintro ⟨⟩⟩
    · exact ⟨.named _, nullable, rfl, by rintro ⟨⟩, by rintro ⟨⟩⟩
  | null => exact ⟨.null, false, rfl, by decide, by rintro ⟨⟩⟩
  | string => exact ⟨.text, nullable, rfl, by decide, by rintro ⟨⟩⟩
  | number => exact ⟨.number, nullable, rfl, by decide, by rintro ⟨⟩⟩
  | boolean => exact ⟨.boolean, nullable, rfl, by decide, by rintro ⟨⟩⟩

theorem TypeExpr.withNull_withNullable {base : TypeExpr} (h : base.layer ≠ .orNull)
    (nullable : Bool) : (base.withNullable nullable).withNull = .orNull base := by
  cases nullable with
  | true => rfl
  | false =>
    cases base with
    | orNull t => exact absurd rfl h
    | _ => rfl

/-- A type that is not null besides is not spelled as if it were. -/
theorem TypeHint.endsWith_spell {base : TypeExpr} (h : base.layer ≠ .orNull)
    (hn : ∀ n ∈ base.names, (' ' : CodePoint) ∉ n) :
    (spell base).endsWith " | None" = false := by
  cases base with
  | named n => exact Text.endsWith_of_not_mem (c := ' ') (by decide) (hn n List.mem_cons_self)
  | list t => exact Text.endsWith_of_getLast?_ne (by decide) (by decide) (by decide)
  | orNull t => exact absurd rfl h
  | _ => decide

/-- The text of a list type. -/
def IsListHint (t : Text) : Prop :=
  t = "list" ∨ ∃ element : Text, t = ("list[" : Text) ++ element ++ "]"

namespace Dataclass

open TypeHint (spell)

/-- **What the line of a field has to say.** One that cannot be missing has its type and no default.
One that can is set to a new list, if it is a list, and to nothing otherwise, which its type admits
besides, once. -/
inductive Says (a : Text × Field) : AttributeText → Prop
  | needed (h : a.2.optional = false) : Says a { name := a.1, hint := spell a.2.type }
  | newList (h : a.2.optional = true) (hk : a.2.kind = .array) {t : Text} (ht : IsListHint t)
    (hhint : spell a.2.type = t ∨ spell a.2.type = t ++ " | None") :
    Says a { name := a.1, hint := spell a.2.type, initial := some "field(default_factory=list)" }
  | absent (h : a.2.optional = true) (hk : a.2.kind ≠ .array) {t : Text}
    (honce : t.endsWith " | None" = false)
    (hhint : spell a.2.type = t ∨ spell a.2.type = t ++ " | None") :
    Says a { name := a.1, hint := t ++ " | None", initial := some "None" }

/-- The line of a field says what it has to. -/
theorem says_attributeText {r : Shape} {i : Nat} {a : Text × Field}
    (hf : a.2 ∈ r.recordFields useOptional (nestedName root) i)
    (hnames : ∀ n ∈ a.2.type.names, (' ' : CodePoint) ∉ n) : Says a (attributeText a.1 a.2) := by
  obtain ⟨name, f⟩ := a
  obtain ⟨before, g, after, -, hg⟩ := Shape.mem_fieldsFrom hf
  obtain ⟨base, nullable, htype, hlayer, hlist⟩ := Shape.exists_base (nestedName root)
    (i + (Shape.recordsOfFields before).length) g.2
  replace htype : f.type = base.withNullable nullable := (congrArg Field.type hg).trans htype
  have hkind : f.kind = g.2.kind := congrArg Field.kind hg
  have hspell : spell f.type = spell base ∨ spell f.type = spell base ++ (" | None" : Text) := by
    rw [htype]
    cases nullable
    · exact .inl rfl
    · exact .inr rfl
  cases ho : f.optional with
  | false =>
    have hline : attributeText name f = { name, hint := spell f.type } := by
      simp [attributeText, TypeHint.ofField, initial, ho]
    rw [hline]
    exact .needed (a := (name, f)) ho
  | true =>
    by_cases hk : f.kind = .array
    · have hline : attributeText name f =
          { name, hint := spell f.type, initial := some "field(default_factory=list)" } := by
        simp [attributeText, TypeHint.ofField, initial, ho, hk]
      rw [hline]
      refine .newList (a := (name, f)) ho hk ?_ hspell
      rcases hlist (hkind.symm.trans hk) with rfl | ⟨t, rfl⟩
      · exact .inl rfl
      · exact .inr ⟨spell t, rfl⟩
    · -- a type that is null besides is not made so again
      have hline : attributeText name f =
          { name, hint := spell base ++ " | None", initial := some "None" } := by
        simp [attributeText, TypeHint.ofField, initial, ho, hk, htype,
          TypeExpr.withNull_withNullable hlayer, spell]
      rw [hline]
      refine .absent (a := (name, f)) ho hk (TypeHint.endsWith_spell hlayer ?_) hspell
      rwa [htype, TypeExpr.names_withNullable] at hnames

/-- The class of a data class has a line for each attribute, those without defaults in front. -/
theorem forall₂_says (hd : d ∈ s.declarations useOptional root) (hid : d.Identified)
    (hb : d.body = .record fields) :
    let attributes := (rules d).attributes fields
    List.Forall₂ Says
      (attributes.filter (!·.2.optional) ++ attributes.filter (·.2.optional))
      (classText d).attributes := by
  intro attributes
  obtain ⟨r, -, i, rfl⟩ := Shape.exists_record hd hb
  rw [classText, Declaration.fields_of_record hb, List.forall₂_map_right_iff, List.forall₂_same]
  intro a ha
  have hmem : a ∈ (rules d).attributes (r.recordFields useOptional (nestedName root) i) :=
    (List.mem_append.1 ha).elim List.mem_of_mem_filter List.mem_of_mem_filter
  have hf := (AttributeRules.mem_attributes hmem).1
  refine says_attributeText hf fun n hn => Text.not_mem_of_isIdentifier (hid.uses n ?_) (by decide)
  rw [Declaration.uses, hb]
  exact List.mem_flatMap.2 ⟨a.2, hf, hn⟩

end Dataclass

/-! ## Written classes -/

/-- **Attributes are allocated without collisions.** Under an identifier for the root, a record is
declared for an object with its keys, when the names of all types that it refers to had been handed
out. Its text as a data class and its text as a model say a class with one attribute for each key;
the names of the attributes differ from one another, from the words that the class refers to, and
from all names handed out so far. In a data class the fields that cannot be missing come first, and
every default is of the type in front of it. -/
theorem attributes_allocated (hroot : root.isIdentifier = true) {before after : List Declaration}
    (hd : s.declarations useOptional root = before ++ d :: after) (hb : d.body = .record fields) :
    (∃ r ∈ s.records, fields.map (·.key) = Entries.names r.fields) ∧
    Shape.HandedOut root (Shape.drafted useOptional root s).namer.issued before d ∧
    (∃ c attributes, ClassText.read? (Dataclass.declare d) = some c ∧ c.name = d.name ∧
      Allocated ["str", "float", "bool", "dict", "list", "dataclass", "field"] d.issued fields
        attributes ∧
      List.Forall₂ Dataclass.Says
        (attributes.filter (!·.2.optional) ++ attributes.filter (·.2.optional)) c.attributes) ∧
    ∃ c attributes, ClassText.read? (Pydantic.declare d) = some c ∧ c.name = d.name ∧
      Allocated ["str", "float", "bool", "dict", "list", "BaseModel", "Field"] d.issued fields
        attributes ∧
      c.attributes.map (·.name) = attributes.map (·.1) := by
  have hmem : d ∈ s.declarations useOptional root := hd ▸ List.mem_append_right _ List.mem_cons_self
  have hid := Shape.identified_declarations hroot d hmem
  have hout := Shape.handedOut_declarations hd
  have hlast : ∀ reserved : List Text,
      (∀ w ∈ reserved, w.getLast? ≠ some ('_' : CodePoint)) →
      ∀ w ∈ reserved ++ d.issued, w.getLast? ≠ some ('_' : CodePoint) := fun reserved h =>
    List.forall_mem_append.2 ⟨h, fun _ hn => getLast?_of_issued hout hn⟩
  refine ⟨Shape.exists_keys hmem hb, hout, ⟨Dataclass.classText d, (Dataclass.rules d).attributes fields,
    Dataclass.read?_declare hid hb, rfl, ?_, Dataclass.forall₂_says hmem hid hb⟩,
    ⟨Pydantic.classText d, (Pydantic.rules d).attributes fields, Pydantic.read?_declare hid hb, rfl,
      ?_, ?_⟩⟩
  · exact allocated_attributes (fun _ hw => hw) (hlast _ (by decide)) fields
  · exact allocated_attributes (fun _ hw => hw) (hlast _ (by decide)) fields
  · rw [Pydantic.classText, Declaration.fields_of_record hb, List.map_map]
    rfl

/-- An object whose keys are names of types. -/
def clashSample : Value :=
  .object [("str", .bool true), ("str_", .null), ("RootNested", .object [("list", .array [])])]

/-- The declaration of the object in it. -/
def clashNested : Declaration :=
  ⟨"RootNested", .record [⟨"list", .array, .anyList, false⟩], ["RootNested"]⟩

/-- The declaration of the root. -/
def clashRoot : Declaration :=
  ⟨"Root", .record [⟨"str", .boolean, .boolean, false⟩, ⟨"str_", .null, .null, false⟩,
    ⟨"RootNested", .object, .named "RootNested", false⟩], ["RootNested"]⟩

theorem attributes_clashSample : ∃ c, ClassText.read? (Pydantic.declare clashRoot) = some c ∧
    c.attributes.length = 3 ∧ (c.attributes.map (·.name)).Nodup ∧
      ∀ a ∈ c.attributes, a.name ≠ Text.ofString "str" ∧ a.name ≠ Text.ofString "RootNested" := by
  have hd : (Shape.of clashSample).declarations true "Root" = [clashNested] ++ clashRoot :: [] := by
    decide +kernel
  obtain ⟨-, -, -, c, attributes, hread, -, hallocated, hnames⟩ :=
    attributes_allocated (by decide) hd rfl
  refine ⟨c, hread, ?_, ?_, ?_⟩
  · have hlength := congrArg List.length hnames
    have hfields := congrArg List.length hallocated.fields_eq
    rw [List.length_map, List.length_map] at hlength
    rw [List.length_map] at hfields
    exact hlength.trans hfields
  · rw [hnames]
    exact hallocated.nodup
  · intro l hl
    have hmem : l.name ∈ attributes.map (·.1) := hnames ▸ List.mem_map_of_mem hl
    obtain ⟨a, ha, hname⟩ := List.mem_map.1 hmem
    rw [← hname]
    refine ⟨fun h => hallocated.not_reserved a ha ?_, fun h => hallocated.not_issued a ha ?_⟩ <;>
      rw [h] <;> decide

end TypeSketch
