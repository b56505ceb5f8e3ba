import TypeSketch.Proofs.ClassText
import TypeSketch.Proofs.Portable

/-!
# Written classes read back

* `Dataclass.classText`, `Pydantic.classText`, `TypedDict.classText`: the classes that the formats
  write for a record.
* `Dataclass.read?_declare`, `Pydantic.read?_declare`, `TypedDict.read?_declare`: **reading the text
  of a declaration gives the class that was meant.**
-/

namespace TypeSketch

variable {d : Declaration} {fields : List Field} {f : Field} {a : Text × Field} {name key : Text}

namespace TypeHint

/-- The type of an attribute: one that may be missing is set to nothing, unless it is a list. -/
def ofField (f : Field) : Text :=
  spell (if f.optional && f.kind ≠ .array then f.type.withNull else f.type)

theorem not_mem_ofField (hd : d.Identified) (hb : d.body = .record fields) (hf : f ∈ fields)
    {c : CodePoint} (hl : c ∉ letters) (hc : c.continuesIdentifier = false) : c ∉ ofField f := by
  obtain ⟨htype, hnull⟩ := hd.not_mem_spell hb hf hl hc
  rw [ofField]
  split
  · exact hnull
  · exact htype

end TypeHint

open TypeHint (ofField not_mem_ofField)

/-- An attribute of a class whose name consists of word characters. -/
theorem AttributeText.Plain.of_words (hd : d.Identified) (hb : d.body = .record fields)
    (hf : f ∈ fields) (hname : ∀ c ∈ name, c.isWord = true) {initial : Option Text}
    (hinitial : ∀ t ∈ initial, ('\n' : CodePoint) ∉ t) :
    Plain { name, hint := ofField f, initial } where
  name := ⟨fun h => absurd (hname _ h) (by decide), fun h => absurd (hname _ h) (by decide)⟩
  hint := ⟨not_mem_ofField hd hb hf (by decide) (by decide),
    not_mem_ofField hd hb hf (by decide) (by decide)⟩
  initial := hinitial

theorem AttributeRules.mem_attributes {rules : AttributeRules} (h : a ∈ rules.attributes fields) :
    a.2 ∈ fields ∧ ∀ c ∈ a.1, c.isWord = true := by
  refine ⟨?_, ?_⟩
  · rw [← fields_attributes rules fields]
    exact List.mem_map_of_mem h
  · obtain ⟨taken, key, hname⟩ := exists_name_of_mem_attributes h
    rw [hname]
    exact isWord_of_mem_name

/-! ## Data classes -/

namespace Dataclass

/-- What an attribute is set to. -/
def initial (f : Field) : Option Text :=
  if f.optional then
    if f.kind = .array then some "field(default_factory=list)" else some "None"
  else none

/-- The attribute of a field. -/
def attributeText (name : Text) (f : Field) : AttributeText :=
  { name, hint := ofField f, initial := initial f }

theorem attributeLine_eq (name : Text) (f : Field) :
    attributeLine name f = (attributeText name f).write := by
  rw [attributeLine, attributeText, AttributeText.write, initial, ofField]
  cases f.optional with
  | false => simp
  | true => by_cases hk : f.kind = .array <;> simp [hk] <;> rfl

/-- The class of a record: the attributes without defaults in front of the others. -/
def classText (d : Declaration) : ClassText :=
  let attributes := (rules d).attributes d.fields
  { decorators := ["@dataclass"]
    name := d.name
    bases := ":"
    attributes := (attributes.filter (!·.2.optional) ++ attributes.filter (·.2.optional)).map
      fun a => attributeText a.1 a.2 }

theorem declare_eq (hb : d.body = .record fields) : declare d = (classText d).write := by
  simp only [declare, hb, attributeLines, classText, ClassText.write,
    List.partition_eq_filter_filter, List.map_map, List.append_assoc]
  rw [funext fun a : Text × Field => attributeLine_eq a.1 a.2]
  rfl

theorem plain_classText (hd : d.Identified) (hb : d.body = .record fields) :
    (classText d).Plain where
  decorators := List.forall_mem_singleton.2 (by decide)
  name := Text.continues_of_isIdentifier hd.name
  bases := by
    show (∀ c ∈ (":" : Text).head?, c.continuesIdentifier = false) ∧
      ('\n' : CodePoint) ∉ (":" : Text)
    decide
  attributes := by
    refine List.forall_mem_map.2 fun a ha => ?_
    -- either part holds attributes of the record
    have hmem : a ∈ (rules d).attributes d.fields :=
      (List.mem_append.1 ha).elim List.mem_of_mem_filter List.mem_of_mem_filter
    obtain ⟨hf, hname⟩ := AttributeRules.mem_attributes hmem
    refine .of_words hd hb ?_ hname fun t ht => ?_
    · rwa [Declaration.fields_of_record hb] at hf
    · simp only [initial] at ht
      split_ifs at ht <;> cases ht <;> decide

/-- **Reading a data class gives the class of the record.** -/
theorem read?_declare (hd : d.Identified) (hb : d.body = .record fields) :
    ClassText.read? (declare d) = some (classText d) := by
  rw [declare_eq hb, ClassText.read?_write (plain_classText hd hb)]

end Dataclass

/-! ## Models -/

namespace Pydantic

/-- What an attribute is set to, given its alias. -/
def initial (f : Field) (altName : Option Text) : Option Text :=
  if f.optional then
    if f.kind = .array then
      some (("Field(" : Text) ++
        Text.join ", " (("default_factory=list" : Text) :: altName.toList) ++ ")")
    else some (altName.elim "None" fun a => ("Field(default=None, " : Text) ++ a ++ ")")
  else altName.map fun a => ("Field(" : Text) ++ a ++ ")"

/-- The attribute of a field. -/
def attributeText (name : Text) (f : Field) : AttributeText :=
  { name, hint := ofField f, initial := initial f (alias? name f.key) }

theorem attributeLine_eq (name : Text) (f : Field) :
    attributeLine name f = (attributeText name f).write := by
  rw [attributeLine, attributeText, AttributeText.write, initial, ofField]
  unfold fieldBody
  cases f.optional with
  | false => cases alias? name f.key <;> simp [Text.ofString]
  | true =>
    by_cases hk : f.kind = .array
    · simp [hk, Text.ofString]
    · cases alias? name f.key <;> simp [hk, Text.ofString]

/-- The class of a record. -/
def classText (d : Declaration) : ClassText :=
  { name := d.name
    bases := "(BaseModel):"
    attributes := ((rules d).attributes d.fields).map fun a => attributeText a.1 a.2 }

theorem declare_eq (hb : d.body = .record fields) : declare d = (classText d).write := by
  simp only [declare, hb, classText, ClassText.write, Declaration.fields, List.map_map]
  rw [funext fun a : Text × Field => attributeLine_eq a.1 a.2]
  simp only [List.append_assoc]
  rfl

theorem newline_not_mem_alias {t : Text} (h : t ∈ alias? name key) : ('\n' : CodePoint) ∉ t := by
  rw [alias?] at h
  split at h
  · cases h
  · cases h
    rw [List.mem_append, not_or]
    exact ⟨by decide, fun hmem => absurd (Json.isPrintable_of_mem_quote hmem) (by decide)⟩

/-- What an attribute without an alias is set to. -/
theorem initial_none (f : Field) : ∀ t ∈ initial f none,
    t ∈ (["Field(default_factory=list)", "None"].map Text.ofString) := by
  rw [initial]
  split_ifs <;> decide

/-- What an attribute with an alias is set to: a call whose last argument it is. -/
theorem initial_some (f : Field) (a : Text) :
    ∃ front ∈ ["Field(", "Field(default_factory=list, ", "Field(default=None, "].map Text.ofString,
      initial f (some a) = some (front ++ a ++ ")") := by
  rw [initial]
  split_ifs
  · exact ⟨"Field(default_factory=list, ", by decide, rfl⟩
  · exact ⟨"Field(default=None, ", by decide, rfl⟩
  · exact ⟨"Field(", by decide, rfl⟩

theorem newline_not_mem_initial {altName : Option Text}
    (h : ∀ t ∈ altName, ('\n' : CodePoint) ∉ t) (f : Field) :
    ∀ t ∈ initial f altName, ('\n' : CodePoint) ∉ t := by
  intro t ht
  cases altName with
  | none =>
    have hline : ∀ t ∈ ["Field(default_factory=list)", "None"].map Text.ofString,
        ('\n' : CodePoint) ∉ t := by decide
    exact hline t (initial_none f t ht)
  | some a =>
    have hline : ∀ t ∈ ["Field(", "Field(default_factory=list, ", "Field(default=None, "].map
        Text.ofString, ('\n' : CodePoint) ∉ t := by decide
    obtain ⟨front, hfront, hinitial⟩ := initial_some f a
    rw [hinitial] at ht
    cases ht
    simp only [List.mem_append, not_or]
    exact ⟨⟨hline front hfront, h a rfl⟩, by decide⟩

theorem plain_classText (hd : d.Identified) (hb : d.body = .record fields) :
    (classText d).Plain where
  decorators := by nofun
  name := Text.continues_of_isIdentifier hd.name
  bases := by
    show (∀ c ∈ ("(BaseModel):" : Text).head?, c.continuesIdentifier = false) ∧
      ('\n' : CodePoint) ∉ ("(BaseModel):" : Text)
    decide
  attributes := by
    refine List.forall_mem_map.2 fun a ha => ?_
    obtain ⟨hf, hname⟩ := AttributeRules.mem_attributes ha
    refine .of_words hd hb ?_ hname
      (newline_not_mem_initial (fun _ => newline_not_mem_alias) a.2)
    rwa [Declaration.fields_of_record hb] at hf

/-- **Reading a model gives the class of the record.** -/
theorem read?_declare (hd : d.Identified) (hb : d.body = .record fields) :
    ClassText.read? (declare d) = some (classText d) := by
  rw [declare_eq hb, ClassText.read?_write (plain_classText hd hb)]

end Pydantic

/-! ## Typed dictionaries -/

namespace TypedDict

/-- The class of a record, with its keys for names. -/
def classText (d : Declaration) : ClassText :=
  { name := d.name
    bases := "(TypedDict):"
    attributes := d.fields.map fun f => { name := f.key, hint := hint f } }

theorem declare_eq (hb : d.body = .record fields) (hc : isClass fields = true) :
    declare d = (classText d).write := by
  have hline : classLine = fun f => AttributeText.write { name := f.key, hint := hint f } := by
    funext f
    simp [classLine, AttributeText.write]
  simp only [declare, hb, hc, if_true, classText, ClassText.write, Declaration.fields, List.map_map,
    hline, List.append_assoc]
  rfl

theorem not_mem_hint (hd : d.Identified) (hb : d.body = .record fields) (hf : f ∈ fields)
    {c : CodePoint} (hl : c ∉ TypeHint.letters) (hc : c.continuesIdentifier = false) :
    c ∉ hint f := by
  have hword : ∀ w : Text, (∀ e ∈ w, e ∈ TypeHint.letters) → c ∉ w := fun w hw hmem =>
    hl (hw c hmem)
  have htype := (hd.not_mem_spell hb hf hl hc).1
  rw [hint]
  split
  · simp only [List.mem_append, not_or]
    exact ⟨⟨hword _ (by decide), htype⟩, hword _ (by decide)⟩
  · exact htype

theorem plain_classText (hd : d.Identified) (hb : d.body = .record fields)
    (hc : isClass fields = true) : (classText d).Plain where
  decorators := by nofun
  name := Text.continues_of_isIdentifier hd.name
  bases := by
    show (∀ c ∈ ("(TypedDict):" : Text).head?, c.continuesIdentifier = false) ∧
      ('\n' : CodePoint) ∉ ("(TypedDict):" : Text)
    decide
  attributes := by
    refine List.forall_mem_map.2 fun f hf => ?_
    rw [Declaration.fields_of_record hb] at hf
    have hkey := List.all_eq_true.1 hc f hf
    rw [TypeHint.isPlainIdentifier, Bool.and_eq_true] at hkey
    exact ⟨⟨Text.not_mem_of_isIdentifier hkey.1 (by decide),
      Text.not_mem_of_isIdentifier hkey.1 (by decide)⟩,
      ⟨not_mem_hint hd hb hf (by decide) (by decide),
        not_mem_hint hd hb hf (by decide) (by decide)⟩, nofun⟩

/-- **Reading a typed dictionary that is written as a class gives the class of the record.** -/
theorem read?_declare (hd : d.Identified) (hb : d.body = .record fields)
    (hc : isClass fields = true) : ClassText.read? (declare d) = some (classText d) := by
  rw [declare_eq hb hc, ClassText.read?_write (plain_classText hd hb hc)]

end TypedDict

end TypeSketch
