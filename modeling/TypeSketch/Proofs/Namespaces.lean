import TypeSketch.Proofs.Allocation

/-!
# Beginnings of attribute names

Models keep names that begin with an underscore for private attributes, and those that begin with
`model_` for themselves.

* `AttributeRules.Admits.mem_names_iff`: **when a word is the name of one of some keys.**
* `AttributeRules.names_of_attributes`: the names in front of an attribute are the taken ones.
* `AttributeRules.startsWith_underscore`: no name begins with an underscore, if none may.
* `AttributeRules.startsWith_name_iff`: **when a name begins in a way that may not be used**: its
  key comes down to the beginning without its underscore, which another key has taken.
* `Pydantic.attribute_namespaces`: **no attribute of a model begins with an underscore**, and one
  begins with `model_` exactly when its key and an earlier one come down to `model`.
-/

namespace TypeSketch

/-! ## Underscores behind a text -/

namespace Text

variable {t start : Text}

/-- Underscores behind a text make it begin with a word and an underscore only if the text is that
word. -/
theorem startsWith_append_underscores (hlast : start.getLast? ≠ some ('_' : CodePoint))
    (ht : t.startsWith (start ++ "_") = false) (k : Nat) :
    (t ++ times k '_').startsWith (start ++ "_") = true ↔ t = start ∧ 0 < k := by
  induction k with
  | zero =>
    rw [times, List.replicate_zero, List.append_nil, ht]
    simp
  | succ k ih =>
    have hsucc : t ++ times (k + 1) '_' = t ++ times k '_' ++ ("_" : Text) := by
      rw [times, List.replicate_succ', ← List.append_assoc]
      rfl
    rw [startsWith, List.isPrefixOf_iff_prefix] at ih
    rw [hsucc, startsWith, List.isPrefixOf_iff_prefix]
    constructor
    · intro h
      -- the last underscore is that of the word, or the word ends in front of it
      rcases List.prefix_concat_iff.1 h with hwhole | hshort
      · have hstart : start = t ++ times k '_' := (List.append_inj' hwhole rfl).1
        cases k with
        | zero => exact ⟨by simpa [times] using hstart.symm, Nat.one_pos⟩
        | succ k =>
          rw [hstart, getLast?_append_underscores] at hlast
          exact absurd rfl hlast
      · exact ⟨(ih.1 hshort).1, Nat.succ_pos k⟩
    · rintro ⟨rfl, -⟩
      cases k with
      | zero => simp [times]
      | succ k => exact (ih.2 ⟨rfl, Nat.succ_pos k⟩).trans (List.prefix_append _ _)

end Text

/-! ## Words that may stand as names -/

theorem freshen_of_not_mem {taken : List Text} {name : Text} (h : name ∉ taken) :
    freshen taken name = name := by
  rw [freshen, dif_neg h]

namespace AttributeRules

variable {rules : AttributeRules} {taken : List Text} {fields : List Field} {key word : Text}

/-- **A word that may stand as a name as it is**, and is no name that was made out of another. -/
structure Admits (rules : AttributeRules) (word : Text) : Prop where
  qualified : rules.qualified word = word
  allowed : rules.allowed word = word
  unextended : word.getLast? ≠ some ('_' : CodePoint)
  unqualified : word.startsWith "field_" = false

/-- Only the word itself is qualified to it. -/
theorem Admits.qualified_eq_iff (h : rules.Admits word) {stem : Text} :
    rules.qualified stem = word ↔ stem = word := by
  constructor
  · intro hq
    rcases qualified_cases rules stem with ⟨hstem, -⟩ | hstem
    · exact hstem.symm.trans hq
    · have hstart := Text.startsWith_append "field_" stem
      rw [← hstem, hq, h.unqualified] at hstart
      cases hstart
  · rintro rfl
    exact h.qualified

/-- The name of a key that comes down to a word is the word, or has underscores behind it if the
word is taken. -/
theorem Admits.name_eq (h : rules.Admits word) (hstem : rules.stem key = word) :
    rules.name taken key = freshen taken word := by
  rw [name, hstem, h.qualified, h.allowed]

/-- **Only a key that comes down to a word has it for its name**, if it is not taken. -/
theorem Admits.name_eq_iff (h : rules.Admits word) :
    rules.name taken key = word ↔ rules.stem key = word ∧ word ∉ taken := by
  constructor
  · intro hname
    obtain ⟨k, hk⟩ := AttributeRules.name_eq rules taken key
    rw [hname] at hk
    cases k with
    | zero =>
      rw [Text.times, List.replicate_zero, List.append_nil] at hk
      exact ⟨h.qualified_eq_iff.1 hk.symm, hname ▸ name_not_mem_taken⟩
    | succ k =>
      have hlast := h.unextended
      rw [hk, Text.getLast?_append_underscores] at hlast
      exact absurd rfl hlast
  · rintro ⟨hstem, hfree⟩
    rw [h.name_eq hstem, freshen_of_not_mem hfree]

/-- **A word is the name of some keys** exactly when one of them comes down to it, and it was not
taken. -/
theorem Admits.mem_names_iff (h : rules.Admits word) {keys : List Text} :
    word ∈ (rules.names taken keys).1 ↔ word ∉ taken ∧ ∃ key ∈ keys, rules.stem key = word := by
  induction keys generalizing taken with
  | nil => simp [names]
  | cons key rest ih =>
    simp only [names, List.mem_cons, exists_eq_or_imp]
    rw [ih, List.mem_cons, not_or, @eq_comm _ word, h.name_eq_iff]
    constructor
    · rintro (⟨hstem, hfree⟩ | ⟨⟨-, hfree⟩, hrest⟩)
      · exact ⟨hfree, .inl hstem⟩
      · exact ⟨hfree, .inr hrest⟩
    · rintro ⟨hfree, hstem | hrest⟩
      · exact .inl ⟨hstem, hfree⟩
      -- a later key gets the word unless this one takes it
      · by_cases hstem : rules.stem key = word
        · exact .inl ⟨hstem, hfree⟩
        · exact .inr ⟨⟨fun hname => hstem hname.1, hfree⟩, hrest⟩

/-! ## The names in front of one -/

/-- The names that are given are taken, latest first. -/
theorem taken_names (rules : AttributeRules) (taken keys : List Text) :
    (rules.names taken keys).2 = (rules.names taken keys).1.reverse ++ taken := by
  induction keys generalizing taken with
  | nil => rfl
  | cons key rest ih =>
    simp only [names, List.reverse_cons, List.append_assoc]
    exact ih _

theorem names_append (rules : AttributeRules) (taken before after : List Text) :
    (rules.names taken (before ++ after)).1 =
      (rules.names taken before).1 ++ (rules.names (rules.names taken before).2 after).1 := by
  induction before generalizing taken with
  | nil => rfl
  | cons key rest ih => exact congrArg (List.cons _) (ih _)

/-- **The name of an attribute is that of its key among the names of the keys in front of it.** -/
theorem names_of_attributes {before after : List (Text × Field)} {a : Text × Field}
    (h : rules.attributes fields = before ++ a :: after) :
    before.map (·.1) = (rules.names [] (before.map (·.2.key))).1 ∧
      a.1 = rules.name (before.map (·.1)).reverse a.2.key := by
  have hnames := names_attributes rules fields
  have hkeys : fields.map (·.key) = before.map (·.2.key) ++ a.2.key :: after.map (·.2.key) := by
    rw [← fields_attributes rules fields, h, List.map_map, List.map_append, List.map_cons]
    rfl
  rw [h, hkeys, names_append, List.map_append, List.map_cons, names] at hnames
  -- there are as many keys as names in front
  obtain ⟨hbefore, hrest⟩ := List.append_inj hnames (by simp [length_names])
  obtain ⟨hname, -⟩ := List.cons.inj hrest
  rw [taken_names, List.append_nil, ← hbefore] at hname
  exact ⟨hbefore, hname⟩

/-! ## Beginnings of names -/

/-- A name does not begin with an underscore, if none may. -/
theorem startsWith_underscore (h : rules.leadingUnderscore = false) :
    (rules.name taken key).startsWith "_" = false := by
  obtain ⟨k, hk⟩ := name_eq rules taken key
  rw [hk]
  rcases qualified_cases rules (rules.stem key) with ⟨hq, hid⟩ | hq <;> rw [hq]
  · -- a stem that is an identifier is not empty, and its underscores in front are gone
    rw [stem, h, if_neg Bool.false_ne_true] at hid ⊢
    have hhead := List.head?_dropWhile_not (CodePoint.is '_') (words key)
    cases hstem : (words key).dropWhile (CodePoint.is '_') with
    | nil =>
      rw [hstem] at hid
      cases hid
    | cons c rest =>
      rw [hstem] at hhead
      have hc : c ≠ '_' := of_decide_eq_false hhead
      simp [Text.startsWith, Text.ofString, List.isPrefixOf, hc.symm]
  · rfl

variable {start : Text}

/-- A qualified stem does not begin in a way that may not be used. -/
theorem startsWith_qualified (h : start ∈ rules.reservedStarts)
    (hfield : ∀ t, (("field_" : Text) ++ t).startsWith start = false) (stem : Text) :
    (rules.qualified stem).startsWith start = false := by
  rw [qualified]
  split
  · next hfree =>
    rw [Bool.and_eq_true, Bool.not_eq_true', List.any_eq_false] at hfree
    exact Bool.eq_false_iff.2 (hfree.2 start h)
  · exact hfield stem

/-- **When a name begins in a way that may not be used.** What is put in front of a stem keeps it
from such a beginning; it comes about only where an underscore is put behind the word in it, since
the word is taken. -/
theorem startsWith_name_iff (h : start ++ "_" ∈ rules.reservedStarts) (hw : rules.Admits start)
    (hfield : ∀ t, (("field_" : Text) ++ t).startsWith (start ++ "_") = false) :
    (rules.name taken key).startsWith (start ++ "_") = true ↔
      rules.stem key = start ∧ start ∈ taken := by
  obtain ⟨k, hk⟩ := name_eq rules taken key
  have hiff := Text.startsWith_append_underscores hw.unextended
    (startsWith_qualified h hfield (rules.stem key)) k
  rw [← hk, hw.qualified_eq_iff] at hiff
  rw [hiff]
  refine and_congr_right fun hstem => ?_
  rw [hw.name_eq hstem, hstem, hw.qualified] at hk
  -- no underscore is put behind a word that is free
  constructor
  · intro hpos
    by_contra hfree
    rw [freshen_of_not_mem hfree] at hk
    have hlength := congrArg List.length hk
    rw [List.length_append, Text.times, List.length_replicate] at hlength
    omega
  · intro htaken
    refine Nat.pos_of_ne_zero fun hzero => freshen_not_mem taken start ?_
    rwa [hk, hzero, Text.times, List.replicate_zero, List.append_nil]

end AttributeRules

/-! ## Models -/

namespace Pydantic

variable {s : Shape} {useOptional : Bool} {root : Text} {d : Declaration} {fields : List Field}

/-- An attribute of a model may be called `model`. -/
theorem admits_model (h : ("model" : Text) ∉ d.issued) : (rules d).Admits "model" where
  qualified := rfl
  allowed := by
    have hword : TypeHint.isKeyword "model" = false := by decide
    have hfree : (rules d).reserved.contains "model" = false := by
      rw [List.contains_eq_mem, decide_eq_false_iff_not, rules, List.mem_append, not_or]
      exact ⟨by decide, h⟩
    rw [AttributeRules.allowed, hword, hfree]
    rfl
  unextended := by decide
  unqualified := by decide

/-- No type that is referred to is called `model`. -/
theorem model_not_mem_issued (hd : d ∈ s.declarations useOptional root) :
    ("model" : Text) ∉ d.issued := by
  intro hmem
  obtain ⟨before, after, hsplit⟩ := List.append_of_mem hd
  obtain ⟨i, hi⟩ := (Shape.handedOut_declarations hsplit).exists_nestedName hmem
  obtain ⟨tail, htail, -⟩ := nestedName_eq root i
  have hletter : ('N' : CodePoint) ∈ root ++ ("Nested" : Text) ++ tail :=
    List.mem_append_left _ (List.mem_append_right _ (by decide))
  rw [← htail, ← hi] at hletter
  exact absurd hletter (by decide)

/-- **The attributes of a model are named out of its own namespaces, but for repeated names.** A
record is declared for an object, as a class with one attribute for each key, in their order. No
attribute begins with an underscore. One begins with `model_` exactly when its key comes down to
`model`, which an earlier key has come down to as well. -/
theorem attribute_namespaces (hd : d ∈ s.declarations useOptional root)
    (hb : d.body = .record fields) :
    (∃ r ∈ s.records, fields.map (·.key) = Entries.names r.fields) ∧
    ∃ (c : ClassText) (attributes : List (Text × Field)), declare d = c.write ∧
      (root.isIdentifier = true → ClassText.read? (declare d) = some c) ∧
      c.attributes.map (·.name) = attributes.map (·.1) ∧ attributes.map (·.2) = fields ∧
      (∀ a ∈ attributes, a.1.startsWith "_" = false) ∧
      ∀ before a after, attributes = before ++ a :: after →
        (a.1.startsWith "model_" = true ↔ (rules d).stem a.2.key = "model" ∧
          ∃ b ∈ before, (rules d).stem b.2.key = "model") := by
  have hmodel := admits_model (model_not_mem_issued hd)
  refine ⟨Shape.exists_keys hd hb, classText d, (rules d).attributes fields, declare_eq hb,
    fun hroot => read?_declare (Shape.identified_declarations hroot d hd) hb, ?_,
    AttributeRules.fields_attributes _ _, fun a ha => ?_, fun before a after hsplit => ?_⟩
  · rw [classText, Declaration.fields_of_record hb, List.map_map]
    rfl
  · obtain ⟨taken, key, hname⟩ := AttributeRules.exists_name_of_mem_attributes ha
    rw [hname]
    exact AttributeRules.startsWith_underscore rfl
  · obtain ⟨hbefore, hname⟩ := AttributeRules.names_of_attributes hsplit
    have hspell : ("model_" : Text) = ("model" : Text) ++ "_" := rfl
    rw [hname, hspell, AttributeRules.startsWith_name_iff (List.mem_singleton_self _) hmodel
      fun _ => rfl]
    refine and_congr_right fun _ => ?_
    rw [List.mem_reverse, hbefore, hmodel.mem_names_iff, and_iff_right List.not_mem_nil]
    simp only [List.mem_map, exists_exists_and_eq_and]

/-- An object with keys from both namespaces. -/
def namespaceSample : Value :=
  .object [("_id", .null), ("model_config", .string "x"), ("_model_", .bool true)]

/-- The declaration of its root. -/
def namespaceRoot : Declaration :=
  ⟨"Root", .record [⟨"_id", .null, .null, false⟩, ⟨"model_config", .string, .text, false⟩,
    ⟨"_model_", .boolean, .boolean, false⟩], []⟩

theorem attribute_namespaces_namespaceSample :
    ∃ c, ClassText.read? (declare namespaceRoot) = some c ∧ c.attributes.length = 3 ∧
      ∀ l ∈ c.attributes,
        l.name.startsWith "_" = false ∧ l.name.startsWith "model_" = false := by
  have hd : namespaceRoot ∈ (Shape.of namespaceSample).declarations true "Root" := by
    decide +kernel
  obtain ⟨-, c, attributes, -, hread, hnames, hfields, hunderscore, hmodel⟩ :=
    attribute_namespaces hd rfl
  refine ⟨c, hread (by decide), ?_, fun l hl => ?_⟩
  · have hlength := congrArg List.length hnames
    have hcount := congrArg List.length hfields
    rw [List.length_map, List.length_map] at hlength
    rw [List.length_map] at hcount
    exact hlength.trans hcount
  · have hmem : l.name ∈ attributes.map (·.1) := hnames ▸ List.mem_map_of_mem hl
    obtain ⟨a, ha, hname⟩ := List.mem_map.1 hmem
    obtain ⟨before, after, hsplit⟩ := List.append_of_mem ha
    have hkey : a.2 ∈ attributes.map (·.2) := List.mem_map_of_mem ha
    rw [hfields] at hkey
    rw [← hname]
    refine ⟨hunderscore a ha, Bool.eq_false_iff.2 fun hstart => ?_⟩
    have hstem : ∀ f ∈ namespaceRoot.fields, (rules namespaceRoot).stem f.key ≠ "model" := by
      decide
    exact hstem _ hkey ((hmodel before a after hsplit).1 hstart).1

/-- An object with two keys that come down to `model`. -/
def modelSample : Value := .object [("model", .number (.int 1)), ("_model", .number (.int 2))]

/-- The declaration of its root. -/
def modelRoot : Declaration :=
  ⟨"Root", .record [⟨"model", .number, .number, false⟩, ⟨"_model", .number, .number, false⟩], []⟩

/-- The second of them is an attribute in the namespace of the model. -/
theorem not_attribute_namespaces_model :
    modelRoot ∈ (Shape.of modelSample).declarations true "Root" ∧
    ∃ c, ClassText.read? (declare modelRoot) = some c ∧
      ∃ l ∈ c.attributes, l.name.startsWith "model_" = true := by
  refine ⟨by decide +kernel, ?_⟩
  have hread : (ClassText.read? (declare modelRoot)).any
      (·.attributes.any (·.name.startsWith "model_")) = true := by
    decide +kernel
  rwa [Option.any_eq_true, exists_congr fun c => and_congr_right fun _ => List.any_eq_true] at hread

end Pydantic

end TypeSketch
