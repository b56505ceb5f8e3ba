import TypeSketch.Proofs.DenotedKeys
import TypeSketch.Proofs.ModuleLines

/-!
# Imports that are used

A module of typed dictionaries or data classes imports a helper besides what it always needs, if
some line refers to it.

* `Shape.exists_optional_iff`: **some field may be missing exactly when an object does not require
  one of its properties.**
* `TypedDict.annotation?`: the annotation on the line of a field, in a class or in a call.
* `TypedDict.annotations_declare`, `Dataclass.attributes_declare`: **the lines of a declaration say
  what its fields are**, and no other line says anything.
* `TypedDict.startsWith_hint`: only a field that may be missing is annotated as such.
* `imports_used`: **a helper is imported exactly when it is used**, and when that is.
-/

namespace TypeSketch

open Text (Indented readLines)

variable {s r : Shape} {useOptional : Bool} {d : Declaration} {fields : List Field} {f : Field}

/-! ## Fields that may be missing -/

namespace Shape

/-- Whether a field may be missing is up to what its object requires. -/
theorem exists_optional_fieldsFrom {name : Nat → Text} {required : List Label} {q : Kind → Prop}
    (fs : List (Text × Shape)) (i : Nat) :
    (∃ f ∈ fieldsFrom useOptional name required i fs, f.optional = true ∧ q f.kind) ↔
      useOptional = true ∧ ∃ p ∈ fs,
        required.contains (.name p.1) = false ∧ p.2.kind ≠ .null ∧ q p.2.kind := by
  induction fs generalizing i with
  | nil => simp [fieldsFrom]
  | cons p rest ih =>
    have hfirst : (isOptional useOptional required p.1 p.2.kind = true ∧ q p.2.kind) ↔
        useOptional = true ∧
          required.contains (.name p.1) = false ∧ p.2.kind ≠ .null ∧ q p.2.kind := by
      rw [isOptional, Bool.and_eq_true, Bool.and_eq_true, decide_eq_true_eq, Bool.not_eq_true']
      constructor
      · rintro ⟨⟨⟨hkind, huse⟩, hrequired⟩, hq⟩
        exact ⟨huse, hrequired, hkind, hq⟩
      · rintro ⟨huse, hrequired, hkind, hq⟩
        exact ⟨⟨⟨hkind, huse⟩, hrequired⟩, hq⟩
    rw [fieldsFrom, List.exists_mem_cons_iff, List.exists_mem_cons_iff, ih, hfirst, and_or_left]

/-- The objects of a shape: itself and its rows, as far as they are objects. -/
def objectNodes (s : Shape) : List Shape :=
  (s :: (paths [] s).map (·.shape)).filter (·.kind = .object)

/-- The records of a shape are its objects with properties. -/
theorem mem_records_iff : r ∈ s.records ↔ r ∈ s.objectNodes ∧ r.fields ≠ [] := by
  have hbelow : r ∈ s.recordsBelow ↔ r ∈ (paths [] s).map (·.shape) ∧ r.isRecord = true := by
    rw [← shapes_paths s [], recordShapes, List.mem_map, List.mem_map]
    constructor
    · rintro ⟨row, hrow, rfl⟩
      have hmem := List.mem_filter.1 hrow
      exact ⟨⟨row, hmem.1, rfl⟩, hmem.2⟩
    · rintro ⟨⟨row, hrow, rfl⟩, hr⟩
      exact ⟨row, List.mem_filter.2 ⟨hrow, hr⟩, rfl⟩
  have hroot : r ∈ (if s.isRecord then [s] else []) ↔ r = s ∧ r.isRecord = true := by
    by_cases hs : s.isRecord = true
    · rw [if_pos hs, List.mem_singleton]
      exact ⟨fun h => ⟨h, h ▸ hs⟩, And.left⟩
    · rw [if_neg hs]
      exact ⟨fun h => absurd h List.not_mem_nil, fun h => absurd (h.1 ▸ h.2) hs⟩
  rw [records_eq, List.mem_append, hroot, hbelow, ← or_and_right, isRecord_iff, objectNodes,
    List.mem_filter, List.mem_cons, decide_eq_true_eq, and_assoc]

/-- **Some field may be missing exactly when an object does not require one of its properties**, if
that is not always null and optional fields are used. -/
theorem exists_optional_iff {q : Kind → Prop} {root : Text} :
    (∃ d ∈ s.declarations useOptional root, ∃ f ∈ d.fields, f.optional = true ∧ q f.kind) ↔
      useOptional = true ∧ ∃ o ∈ s.objectNodes, ∃ p ∈ o.fields,
        o.requires p.1 = false ∧ p.2.kind ≠ .null ∧ q p.2.kind := by
  constructor
  · rintro ⟨d, hd, f, hf, hoptional⟩
    obtain ⟨r, hr, i, hfields⟩ := exists_record hd (Declaration.body_of_mem_fields hf)
    rw [hfields] at hf
    obtain ⟨huse, hproperty⟩ := (exists_optional_fieldsFrom r.fields i).1 ⟨f, hf, hoptional⟩
    exact ⟨huse, r, (mem_records_iff.1 hr).1, hproperty⟩
  · rintro ⟨huse, o, ho, p, hp, hproperty⟩
    -- an object with a property is a record, and every record is declared
    have hrecord : o ∈ s.records := mem_records_iff.2 ⟨ho, List.ne_nil_of_mem hp⟩
    obtain ⟨d, hd, i, hfields⟩ := exists_declared useOptional root hrecord
    refine ⟨d, hd, ?_⟩
    rw [hfields]
    exact (exists_optional_fieldsFrom o.fields i).2 ⟨huse, p, hp, hproperty⟩

end Shape

/-! ## Typed dictionaries -/

namespace TypedDict

/-- The annotation on the line of a field. It stands behind four blanks, a key and a colon. In a
call the key is a literal, and there is a comma at the end. -/
def annotation? (line : Text) : Option Text := do
  let entry ← Text.behind? "    " line
  match StringLiteral.read? entry with
  | some (_, after) => Text.inFront? "," (← Text.behind? ": " after)
  | none => Text.behind? ": " (Text.cutAt ':' entry).2

theorem indented_annotation? : Indented annotation? := fun line h => by
  rw [annotation?, Text.behind?_of_head? (by decide) h]
  rfl

theorem annotation?_callLine (f : Field) : annotation? (callLine f) = some (hint f) := by
  have hline : callLine f =
      ("    " : Text) ++ (Json.quote f.key ++ ((": " : Text) ++ (hint f ++ ("," : Text)))) := by
    rw [callLine, List.append_assoc, List.append_assoc, List.append_assoc]
  rw [annotation?, hline, Text.behind?_append]
  simp only [Option.bind_eq_bind, Option.bind_some, StringLiteral.read?_quote, Text.behind?_append,
    Text.inFront?_append]

/-- A key that is written as a name is no literal, and the first colon stands behind it. -/
theorem annotation?_classLine (hk : TypeHint.isPlainIdentifier f.key = true) :
    annotation? (classLine f) = some (hint f) := by
  have hid : f.key.isIdentifier = true := by
    rw [TypeHint.isPlainIdentifier, Bool.and_eq_true] at hk
    exact hk.1
  have hcolon : (':' : CodePoint) ∉ f.key := Text.not_mem_of_isIdentifier hid (by decide)
  have hquote : ('"' : CodePoint) ∉ f.key := Text.not_mem_of_isIdentifier hid (by decide)
  have hline : classLine f = ("    " : Text) ++ (f.key ++ ((": " : Text) ++ hint f)) := by
    rw [classLine, List.append_assoc, List.append_assoc]
  have hliteral : StringLiteral.read? (f.key ++ ((": " : Text) ++ hint f)) = none := by
    cases hkey : f.key with
    | nil =>
      rw [hkey] at hid
      cases hid
    | cons c rest =>
      rw [hkey, List.mem_cons, not_or] at hquote
      exact if_neg (Ne.symm hquote.1)
  rw [annotation?, hline, Text.behind?_append]
  simp only [Option.bind_eq_bind, Option.bind_some, hliteral]
  rw [Text.cutAt_append hcolon (by rintro _ ⟨⟩; rfl), Text.behind?_append]

/-- **The lines of a declaration say the annotations of its fields**, in a class and in a call. -/
theorem annotations_declare (hd : d.Identified) :
    readLines annotation? (declare d) = d.fields.map hint := by
  cases hb : d.body with
  | «alias» t =>
    have hdeclare : declare d = TypeHint.declareAlias d.name t := by rw [declare, hb]
    rw [hdeclare, hd.readLines_alias hb indented_annotation?, Declaration.fields, hb]
    rfl
  | record fields =>
    rw [Declaration.fields_of_record hb]
    cases hc : isClass fields with
    | true =>
      have hline : ∀ f ∈ fields, annotation? (classLine f) = some (hint f) := fun f hf =>
        annotation?_classLine (List.all_eq_true.1 hc f hf)
      have hwrite : ∀ f : Field,
          AttributeText.write { name := f.key, hint := hint f } = classLine f := fun f => by
        simp [classLine, AttributeText.write]
      rw [declare_eq hb hc, ClassText.readLines_write (plain_classText hd hb hc)
        indented_annotation?, classText, Declaration.fields_of_record hb, List.filterMap_map]
      simp only [Function.comp_def, hwrite]
      rw [List.filterMap_congr hline, List.filterMap_eq_map']
    | false =>
      have hfirst : annotation? (d.name ++ " = TypedDict(" ++ Json.quote d.name ++ ", \x7b") =
          none := by
        rw [List.append_assoc, List.append_assoc]
        exact indented_annotation? _ (hd.head?_ne_blank _)
      have hlast : annotation? "\x7d)" = none := indented_annotation? _ (by decide)
      have hlines : (declare d).splitOn '\n' = callText d (fields.map callLine) := by
        rw [declare_eq_call hb hc]
        exact Text.splitOn_join (List.cons_ne_nil _ _) (newline_not_mem_callText hd hb)
      rw [readLines, hlines, callText, List.cons_append, List.filterMap_cons_none hfirst,
        List.filterMap_append, List.filterMap_map, List.filterMap_cons_none hlast]
      simp [annotation?_callLine]

/-- What a type is spelled like does not begin like the annotation of a field that may be missing,
whatever stands behind it that is no part of that beginning. -/
theorem startsWith_spell {t : TypeExpr} (ht : ∀ n ∈ t.names, ('[' : CodePoint) ∉ n) {x : Text}
    (hx : ∀ c ∈ x.head?, c ∉ ("NotRequired[" : Text)) :
    Text.startsWith (TypeHint.spell t ++ x) "NotRequired[" = false := by
  induction t generalizing x with
  | named n =>
    have hn : ('[' : CodePoint) ∉ n := ht n List.mem_cons_self
    have hbracket : ('[' : CodePoint) ∈ ("NotRequired[" : Text) := by decide
    rw [Bool.eq_false_iff]
    intro hstart
    obtain ⟨rest, hrest⟩ := List.isPrefixOf_iff_prefix.1 hstart
    -- the bracket is in the name, or a sign in front of it is the first one behind the name
    rcases List.append_eq_append_iff.1 hrest with ⟨behind, hname, -⟩ | ⟨behind, hword, hfollow⟩
    · refine hn ?_
      rw [TypeHint.spell] at hname
      rw [hname]
      exact List.mem_append_left _ hbracket
    · cases behind with
      | nil => exact hn (by rwa [hword, List.append_nil] at hbracket)
      | cons c behind =>
        refine hx c (by rw [hfollow]; rfl) ?_
        rw [hword]
        exact List.mem_append_right _ List.mem_cons_self
  | orNull t ih =>
    rw [TypeHint.spell, List.append_assoc]
    refine ih ht fun c hc => ?_
    obtain rfl : (' ' : CodePoint) = c := Option.some_inj.1 hc
    decide
  | _ => rfl

/-- **Only a field that may be missing is annotated as such.** -/
theorem startsWith_hint (hd : d.Identified) (hf : f ∈ d.fields) :
    (hint f).startsWith "NotRequired[" = f.optional := by
  have hnames : ∀ n ∈ f.type.names, ('[' : CodePoint) ∉ n := by
    intro n hn
    refine Text.not_mem_of_isIdentifier (hd.uses n ?_) (by decide)
    rw [Declaration.uses, Declaration.body_of_mem_fields hf]
    exact List.mem_flatMap.2 ⟨f, hf, hn⟩
  rw [hint]
  cases f.optional with
  | true => rfl
  | false =>
    have hspell := startsWith_spell hnames (x := []) (by simp)
    rwa [List.append_nil] at hspell

variable {ds : List Declaration}

/-- The imports are one line that says nothing. -/
theorem line_imports (ds : List Declaration) :
    ('\n' : CodePoint) ∉ imports ds ∧ (imports ds).head? ≠ some (' ' : CodePoint) := by
  rw [imports]
  split <;> decide

/-- `NotRequired` is imported if a field may be missing. -/
theorem mem_importedNames_iff : ("NotRequired" : Text) ∈ importedNames "typing" (content ds) ↔
    ∃ d ∈ ds, ∃ f ∈ d.fields, f.optional = true := by
  have hany : (∃ d ∈ ds, ∃ f ∈ d.fields, f.optional = true) ↔
      (ds.any fun d => d.fields.any (·.optional)) = true := by
    simp only [List.any_eq_true]
  rw [content, TypeHint.importedNames_module (line_imports ds).1, imports, hany]
  split
  · next h => simp only [h, iff_true]; decide +kernel
  · next h => simp only [h]; decide +kernel

/-- A field is annotated as one that may be missing if there is one. -/
theorem exists_annotation_iff (hds : ∀ d ∈ ds, d.Identified) :
    (∃ a ∈ readLines annotation? (content ds), a.startsWith "NotRequired[" = true) ↔
      ∃ d ∈ ds, ∃ f ∈ d.fields, f.optional = true := by
  have hlines : readLines annotation? (content ds) = ds.flatMap fun d => d.fields.map hint := by
    obtain ⟨hline, hblank⟩ := line_imports ds
    rw [content, TypeHint.readLines_module indented_annotation? hline hblank, List.flatMap_map]
    exact List.flatMap_congr fun d hd => annotations_declare (hds d hd)
  rw [hlines]
  constructor
  · rintro ⟨a, ha, hstart⟩
    obtain ⟨d, hd, hmem⟩ := List.mem_flatMap.1 ha
    obtain ⟨f, hf, rfl⟩ := List.mem_map.1 hmem
    rw [startsWith_hint (hds d hd) hf] at hstart
    exact ⟨d, hd, f, hf, hstart⟩
  · rintro ⟨d, hd, f, hf, hoptional⟩
    refine ⟨hint f, List.mem_flatMap.2 ⟨d, hd, List.mem_map_of_mem hf⟩, ?_⟩
    rwa [startsWith_hint (hds d hd) hf]

end TypedDict

/-! ## Data classes -/

namespace Dataclass

theorem indented_read? : Indented AttributeText.read? := fun line h => by
  rw [AttributeText.read?, Text.behind?_of_head? (by decide) h]
  rfl

/-- **The lines of a declaration say its attributes.** -/
theorem attributes_declare (hd : d.Identified) : readLines AttributeText.read? (declare d) =
    match d.body with
    | .alias _ => []
    | .record _ => (classText d).attributes := by
  cases hb : d.body with
  | «alias» t =>
    have hdeclare : declare d = TypeHint.declareAlias d.name t := by rw [declare, hb]
    rw [hdeclare, hd.readLines_alias hb indented_read?]
  | record fields =>
    have hplain := plain_classText hd hb
    have hline : ∀ a ∈ (classText d).attributes, AttributeText.read? a.write = some a :=
      fun a ha => AttributeText.read?_write (hplain.attributes a ha)
    rw [declare_eq hb, ClassText.readLines_write hplain indented_read?,
      List.filterMap_congr hline, List.filterMap_some]

/-- An attribute is set to a new list if its field may be missing and is an array. -/
theorem initial_eq_list_iff :
    initial f = some ("field(default_factory=list)" : Text) ↔
      f.optional = true ∧ f.kind = .array := by
  rw [initial]
  split_ifs <;> simp_all
  decide

/-- An attribute of a declaration is set to a new list if one of its fields is such an array. -/
theorem exists_initial_iff (hd : d.Identified) :
    (∃ a ∈ readLines AttributeText.read? (declare d),
      a.initial = some ("field(default_factory=list)" : Text)) ↔
      ∃ f ∈ d.fields, f.optional = true ∧ f.kind = .array := by
  rw [attributes_declare hd]
  cases hb : d.body with
  | «alias» t => simp [Declaration.fields, hb]
  | record fields =>
    have hfields := AttributeRules.fields_attributes (rules d) d.fields
    -- those without defaults and those with one are all of them
    have hmem : ∀ a, a ∈ (classText d).attributes ↔
        ∃ b ∈ (rules d).attributes d.fields, attributeText b.1 b.2 = a := by
      intro a
      rw [classText, List.mem_map]
      refine exists_congr fun b => and_congr_left fun _ => ?_
      rw [List.mem_append, List.mem_filter, List.mem_filter, ← and_or_left]
      cases b.2.optional <;> simp
    constructor
    · rintro ⟨a, ha, hinitial⟩
      obtain ⟨b, hb, rfl⟩ := (hmem a).1 ha
      refine ⟨b.2, ?_, initial_eq_list_iff.1 hinitial⟩
      rw [← hfields]
      exact List.mem_map_of_mem hb
    · rintro ⟨f, hf, hlist⟩
      rw [← hfields] at hf
      obtain ⟨b, hb, rfl⟩ := List.mem_map.1 hf
      exact ⟨_, (hmem _).2 ⟨b, hb, rfl⟩, initial_eq_list_iff.2 hlist⟩

variable {ds : List Declaration}

/-- The imports are one line that says nothing. -/
theorem line_imports (ds : List Declaration) :
    ('\n' : CodePoint) ∉ imports ds ∧ (imports ds).head? ≠ some (' ' : CodePoint) := by
  rw [imports]
  split <;> decide

/-- `field` is imported if an array may be missing. -/
theorem mem_importedNames_iff : ("field" : Text) ∈ importedNames "dataclasses" (content ds) ↔
    ∃ d ∈ ds, ∃ f ∈ d.fields, f.optional = true ∧ f.kind = .array := by
  have hany : (∃ d ∈ ds, ∃ f ∈ d.fields, f.optional = true ∧ f.kind = .array) ↔
      (ds.any fun d => d.fields.any defaultsToList) = true := by
    simp only [List.any_eq_true, defaultsToList, Bool.and_eq_true, decide_eq_true_eq]
  rw [content, TypeHint.importedNames_module (line_imports ds).1, imports, hany]
  split
  · next h => simp only [h, iff_true]; decide +kernel
  · next h => simp only [h]; decide +kernel

/-- An attribute is set to a new list if an array may be missing. -/
theorem exists_attribute_iff (hds : ∀ d ∈ ds, d.Identified) :
    (∃ a ∈ readLines AttributeText.read? (content ds),
      a.initial = some ("field(default_factory=list)" : Text)) ↔
      ∃ d ∈ ds, ∃ f ∈ d.fields, f.optional = true ∧ f.kind = .array := by
  have hlines : readLines AttributeText.read? (content ds) =
      ds.flatMap fun d => readLines AttributeText.read? (declare d) := by
    obtain ⟨hline, hblank⟩ := line_imports ds
    rw [content, TypeHint.readLines_module indented_read? hline hblank, List.flatMap_map]
  rw [hlines]
  constructor
  · rintro ⟨a, ha, hinitial⟩
    obtain ⟨d, hd, hmem⟩ := List.mem_flatMap.1 ha
    exact ⟨d, hd, (exists_initial_iff (hds d hd)).1 ⟨a, hmem, hinitial⟩⟩
  · rintro ⟨d, hd, hfield⟩
    obtain ⟨a, ha, hinitial⟩ := (exists_initial_iff (hds d hd)).2 hfield
    exact ⟨a, List.mem_flatMap.2 ⟨d, hd, ha⟩, hinitial⟩

end Dataclass

/-! ## What is generated -/

/-- **A helper is imported exactly when it is used.** A module of typed dictionaries imports
`NotRequired` exactly when one of its lines annotates a field with it. That is the case when
optional fields are used and an object of the shape does not require one of its properties, which
is not always null. A module of data classes imports `field` exactly when one of its attributes is
set to a new list by it. That is the case when an object does not require a property that is an
array. -/
theorem imports_used (s : Shape) (settings : Settings)
    (hroot : settings.root.isIdentifier = true) :
    (∃ g, generate s { settings with format := .string Target.typedDict.name } = .ok g ∧
      (("NotRequired" : Text) ∈ importedNames "typing" g.content ↔
        ∃ a ∈ readLines TypedDict.annotation? g.content, a.startsWith "NotRequired[" = true) ∧
      (("NotRequired" : Text) ∈ importedNames "typing" g.content ↔
        settings.useOptional = true ∧ ∃ o ∈ s.objectNodes, ∃ p ∈ o.fields,
          o.requires p.1 = false ∧ p.2.kind ≠ .null)) ∧
    (∃ g, generate s { settings with format := .string Target.dataclass.name } = .ok g ∧
      (("field" : Text) ∈ importedNames "dataclasses" g.content ↔
        ∃ a ∈ readLines AttributeText.read? g.content,
          a.initial = some ("field(default_factory=list)" : Text)) ∧
      (("field" : Text) ∈ importedNames "dataclasses" g.content ↔
        settings.useOptional = true ∧ ∃ o ∈ s.objectNodes, ∃ p ∈ o.fields,
          o.requires p.1 = false ∧ p.2.kind = .array)) := by
  have hds : ∀ d ∈ s.declarations settings.useOptional settings.root, d.Identified :=
    Shape.identified_declarations hroot
  refine ⟨⟨_, Shape.generate_eq rfl s, ?_, ?_⟩, ⟨_, Shape.generate_eq rfl s, ?_, ?_⟩⟩
  · exact TypedDict.mem_importedNames_iff.trans (TypedDict.exists_annotation_iff hds).symm
  · refine TypedDict.mem_importedNames_iff.trans ?_
    simpa only [and_true] using Shape.exists_optional_iff (q := fun _ => True)
  · exact Dataclass.mem_importedNames_iff.trans (Dataclass.exists_attribute_iff hds).symm
  · refine Dataclass.mem_importedNames_iff.trans ?_
    have harray : ∀ k : Kind, k ≠ .null ∧ k = .array ↔ k = .array := by
      intro k
      cases k <;> simp
    simpa only [harray] using Shape.exists_optional_iff (q := fun k => k = .array)

/-- An object below a key that is no name, with a list that it does not require. -/
def importSample : Shape :=
  { kind := .object
    properties := some [("to do",
      { kind := .object
        properties := some [("tags", { kind := .array, items := some { kind := .string } })] })]
    required := some [.name "to do"] }

/-- Settings with optional fields. -/
def importSettings : Settings :=
  { format := .null, root := "Plan", useOptional := true, root_ne_nil := by decide }

theorem imports_used_importSample :
    (∃ g,
      generate importSample { importSettings with format := .string "python-typeddict" } = .ok g ∧
      ∃ a ∈ readLines TypedDict.annotation? g.content, a.startsWith "NotRequired[" = true) ∧
    ∃ g,
      generate importSample { importSettings with format := .string "python-dataclass" } = .ok g ∧
      ("field" : Text) ∈ importedNames "dataclasses" g.content := by
  obtain ⟨⟨g, hg, huse, hshape⟩, ⟨g', hg', -, hshape'⟩⟩ :=
    imports_used importSample importSettings (by decide +kernel)
  exact ⟨⟨g, hg, huse.1 (hshape.2 (by decide +kernel))⟩, g', hg', hshape'.2 (by decide +kernel)⟩

end TypeSketch
