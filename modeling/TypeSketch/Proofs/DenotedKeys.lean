import TypeSketch.Proofs.Sample
import TypeSketch.Proofs.StringLiteral
import TypeSketch.Proofs.WrittenClasses

/-!
# Keys that string literals denote

A typed dictionary that is written as a call has its keys as string literals, and so has a model
where a key is not the name of its attribute.

* `TypedDict.callKey?`: the key that a line of a call says.
* `AttributeText.key?`: the key under which an attribute is set.
* `Pydantic.key?_attributeText`: that is the key of the field, or its halves if it has an alias.
* `keys_denoted`: **the keys that written literals denote**, which are those of the object as long
  as they have no code points beyond sixteen bits.
-/

namespace TypeSketch

variable {s : Shape} {useOptional : Bool} {root : Text} {d : Declaration} {fields : List Field}
  {name key : Text}

/-! ## Typed dictionaries -/

namespace TypedDict

/-- The key of a line in a call: behind four blanks a string literal, with a colon behind it. -/
def callKey? (line : Text) : Option Text := do
  let (key, after) ← StringLiteral.read? (← Text.behind? "    " line)
  let _ ← Text.behind? ": " after
  some key

theorem callKey?_callLine (f : Field) : callKey? (callLine f) = some f.key.inHalves := by
  have hline : callLine f =
      ("    " : Text) ++ (Json.quote f.key ++ ((": " : Text) ++ (hint f ++ ("," : Text)))) := by
    rw [callLine, List.append_assoc, List.append_assoc, List.append_assoc]
  rw [callKey?, hline, Text.behind?_append]
  simp only [Option.bind_eq_bind, Option.bind_some, StringLiteral.read?_quote, Text.behind?_append]

/-- The lines of some fields say their keys, in halves. -/
theorem mapM_callKey? (fields : List Field) :
    (fields.map callLine).mapM callKey? = some (fields.map (·.key.inHalves)) := by
  have hline : callKey? ∘ callLine = fun f => pure f.key.inHalves := funext callKey?_callLine
  rw [List.mapM_map, hline, List.mapM_pure]
  rfl

/-- The lines of a typed dictionary that is written as a call. -/
def callText (d : Declaration) (lines : List Text) : List Text :=
  (d.name ++ " = TypedDict(" ++ Json.quote d.name ++ ", \x7b") :: lines ++ [("\x7d)" : Text)]

theorem declare_eq_call (hb : d.body = .record fields) (hc : isClass fields = false) :
    declare d = Text.join "\n" (callText d (fields.map callLine)) := by
  simp only [declare, hb, hc, Bool.false_eq_true, if_false]
  rfl

theorem newline_not_mem_callText (hd : d.Identified) (hb : d.body = .record fields) :
    ∀ t ∈ callText d (fields.map callLine), ('\n' : CodePoint) ∉ t := by
  have hquote : ∀ t : Text, ('\n' : CodePoint) ∉ Json.quote t := fun t hmem =>
    absurd (Json.isPrintable_of_mem_quote hmem) (by decide)
  refine List.forall_mem_cons.2 ⟨?_, List.forall_mem_append.2
    ⟨List.forall_mem_map.2 fun f hf => ?_, List.forall_mem_singleton.2 (by decide)⟩⟩
  · simp only [List.mem_append, not_or]
    exact ⟨⟨⟨hd.not_mem_name (by decide), by decide⟩, hquote _⟩, by decide⟩
  · simp only [callLine, List.mem_append, not_or]
    exact ⟨⟨⟨⟨by decide, hquote _⟩, by decide⟩, not_mem_hint hd hb hf (by decide) (by decide)⟩,
      by decide⟩

end TypedDict

/-! ## Models -/

/-- The key under which an attribute is set: what the literal of its alias denotes, if it has one,
and its name otherwise. -/
def AttributeText.key? (a : AttributeText) : Option Text :=
  match a.initial with
  | none => some a.name
  | some t =>
    let (front, literal) := Text.cutAt '"' t
    if literal.isEmpty then some a.name
    else do
      let _ ← Text.inFront? "alias=" front
      let (key, after) ← StringLiteral.read? literal
      if after = ")" then some key else none

namespace Pydantic

theorem alias?_eq_none : alias? name name = none := if_pos rfl

theorem alias?_of_ne (h : name ≠ key) :
    alias? name key = some (("alias=" : Text) ++ Json.quote key) :=
  if_neg h

/-- The key under which an attribute of a field is set. -/
def denotedKey (a : Text × Field) : Text := if a.1 = a.2.key then a.2.key else a.2.key.inHalves

theorem denotedKey_eq_iff {a : Text × Field} :
    denotedKey a = a.2.key ↔ (a.1 ≠ a.2.key → a.2.key.IsBasic) := by
  rw [denotedKey]
  split
  · next h => simp [h]
  · next h => simp [h, Text.inHalves_eq_iff]

/-- **An attribute is set under the key of its field**, which is in halves if it has an alias. -/
theorem key?_attributeText (a : Text × Field) :
    (attributeText a.1 a.2).key? = some (denotedKey a) := by
  obtain ⟨name, f⟩ := a
  rw [denotedKey, attributeText]
  dsimp only
  split
  · -- without an alias there is no literal
    next h =>
    rw [h, alias?_eq_none, AttributeText.key?]
    dsimp only
    have hplain : ∀ t ∈ ["Field(default_factory=list)", "None"].map Text.ofString,
        Text.cutAt '"' t = (t, []) := by decide
    cases hinitial : initial f none with
    | none => rfl
    | some t =>
      dsimp only
      rw [hplain t (initial_none f t hinitial)]
      rfl
  · -- the literal of the alias begins at the first quote
    next h =>
    obtain ⟨front, hfront, hinitial⟩ := initial_some f (("alias=" : Text) ++ Json.quote f.key)
    have hquote : ∀ t ∈ ["Field(", "Field(default_factory=list, ", "Field(default=None, "].map
        Text.ofString, ('"' : CodePoint) ∉ t ++ ("alias=" : Text) := by decide
    have hassoc : front ++ (("alias=" : Text) ++ Json.quote f.key) ++ (")" : Text) =
        (front ++ ("alias=" : Text)) ++ (Json.quote f.key ++ (")" : Text)) := by
      rw [List.append_assoc, List.append_assoc, List.append_assoc]
    have hliteral : ¬ (Json.quote f.key ++ (")" : Text)).isEmpty = true := Bool.false_ne_true
    rw [alias?_of_ne h, AttributeText.key?, hinitial]
    dsimp only
    rw [hassoc, Text.cutAt_append (hquote front hfront) (by rintro _ ⟨⟩; rfl), if_neg hliteral,
      Text.inFront?_append, StringLiteral.read?_quote]
    rfl

theorem mapM_key? (attributes : List (Text × Field)) :
    (attributes.map fun a => attributeText a.1 a.2).mapM AttributeText.key? =
      some (attributes.map denotedKey) := by
  have hline : (AttributeText.key? ∘ fun a : Text × Field => attributeText a.1 a.2) =
      fun a => pure (denotedKey a) := funext key?_attributeText
  rw [List.mapM_map, hline, List.mapM_pure]
  rfl

/-- The keys of a written model are those of the object exactly when the ones with an alias have no
code points beyond sixteen bits. -/
theorem map_denotedKey_eq_iff {attributes : List (Text × Field)}
    (h : attributes.map (·.2) = fields) : attributes.map denotedKey = fields.map (·.key) ↔
      ∀ a ∈ attributes, a.1 ≠ a.2.key → a.2.key.IsBasic := by
  rw [← h, List.map_map, List.map_eq_map_iff]
  exact forall₂_congr fun _ _ => denotedKey_eq_iff

end Pydantic

/-! ## All records -/

/-- **The keys that written literals denote.** A record is declared for an object with its keys. As
a call, it has a line for each key, whose literal denotes the key in halves. As a model, it has an
attribute for each key, set under the key itself if that is its name, and under its halves if the
key is given as an alias. Both are the keys of the object, in their order, exactly when no key that
is written as a literal has a code point beyond sixteen bits. -/
theorem keys_denoted (hd : d ∈ s.declarations useOptional root) (hb : d.body = .record fields) :
    (∃ r ∈ s.records, fields.map (·.key) = Entries.names r.fields) ∧
    (TypedDict.isClass fields = false → ∃ lines denoted : List Text,
      TypedDict.declare d = Text.join "\n" (TypedDict.callText d lines) ∧
      (root.isIdentifier = true → (TypedDict.declare d).splitOn '\n' = TypedDict.callText d lines) ∧
      lines.mapM TypedDict.callKey? = some denoted ∧
      denoted = fields.map (·.key.inHalves) ∧
      (denoted = fields.map (·.key) ↔ ∀ f ∈ fields, f.key.IsBasic)) ∧
    ∃ (c : ClassText) (denoted : List Text), Pydantic.declare d = c.write ∧
      (root.isIdentifier = true → ClassText.read? (Pydantic.declare d) = some c) ∧
      c.attributes.mapM AttributeText.key? = some denoted ∧
      denoted = ((Pydantic.rules d).attributes fields).map Pydantic.denotedKey ∧
      (denoted = fields.map (·.key) ↔
        ∀ a ∈ (Pydantic.rules d).attributes fields, a.1 ≠ a.2.key → a.2.key.IsBasic) := by
  have hid : root.isIdentifier = true → d.Identified := fun h =>
    Shape.identified_declarations h d hd
  refine ⟨Shape.exists_keys hd hb,
    fun hclass => ⟨fields.map TypedDict.callLine, _, ?_, fun hroot => ?_, ?_, rfl, ?_⟩,
    Pydantic.classText d, _, Pydantic.declare_eq hb,
    fun hroot => Pydantic.read?_declare (hid hroot) hb, ?_, rfl,
    Pydantic.map_denotedKey_eq_iff (AttributeRules.fields_attributes _ _)⟩
  · exact TypedDict.declare_eq_call hb hclass
  · rw [TypedDict.declare_eq_call hb hclass]
    exact Text.splitOn_join (List.cons_ne_nil _ _)
      (TypedDict.newline_not_mem_callText (hid hroot) hb)
  · exact TypedDict.mapM_callKey? fields
  · rw [List.map_eq_map_iff]
    exact forall₂_congr fun _ _ => Text.inHalves_eq_iff
  · rw [Pydantic.classText, Declaration.fields_of_record hb]
    exact Pydantic.mapM_key? _

/-- An object with a key of two lines and one that cannot be a name. -/
def literalSample : Value := .object [("a\nb", .bool true), ("class", .null)]

/-- The declaration of its root. -/
def literalRoot : Declaration :=
  ⟨"Root", .record [⟨"a\nb", .boolean, .boolean, false⟩, ⟨"class", .null, .null, false⟩], []⟩

theorem keys_denoted_literalSample :
    ∃ c, ClassText.read? (Pydantic.declare literalRoot) = some c ∧
      c.attributes.mapM AttributeText.key? = some (literalRoot.fields.map (·.key)) := by
  have hd : literalRoot ∈ (Shape.of literalSample).declarations true "Root" := by decide +kernel
  obtain ⟨-, -, c, denoted, -, hread, hkeys, -, hiff⟩ := keys_denoted hd rfl
  have hbasic : ∀ a ∈ (Pydantic.rules literalRoot).attributes literalRoot.fields,
      a.1 ≠ a.2.key → a.2.key.IsBasic := by decide +kernel
  exact ⟨c, hread (by decide), hkeys.trans (congrArg some (hiff.2 hbasic))⟩

/-- An object whose key is beyond sixteen bits. -/
def astralSample : Value := .object [([.ofNat 0x1F600], .number (.int 1))]

/-- The declaration of its root. -/
def astralRoot : Declaration := ⟨"Root", .record [⟨[.ofNat 0x1F600], .number, .number, false⟩], []⟩

/-- Not every key of an object is what its alias denotes. -/
theorem not_keys_denoted_astral :
    astralRoot ∈ (Shape.of astralSample).declarations true "Root" ∧
    ∀ c, ClassText.read? (Pydantic.declare astralRoot) = some c →
      c.attributes.mapM AttributeText.key? ≠ some (astralRoot.fields.map (·.key)) := by
  have hread : (ClassText.read? (Pydantic.declare astralRoot)).bind
      (·.attributes.mapM AttributeText.key?) =
      some [([.ofNat 0xD83D, .ofNat 0xDE00] : Text)] := by
    decide +kernel
  refine ⟨by decide +kernel, fun c hc hkeys => ?_⟩
  rw [hc, Option.bind_some, hkeys] at hread
  exact absurd hread (by decide)

end TypeSketch
