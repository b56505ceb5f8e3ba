import TypeSketch.Proofs.DenotedKeys

/-!
# Keys that class bodies declare

The names in the body of a class are not all taken literally: a private one is put behind the name
of the class.

* `PrivateName.mangled`: the name that is declared for a name in a class.
* `ClassText.declares?`: the names that a class declares, given the normal form of names.
* `ClassText.declares?_eq_iff`: when these are the names as they are written.
* `TypedDict.class_keys`: **the keys of a typed dictionary that is written as a class**, which are
  those of the object unless one of them is private.
-/

namespace TypeSketch

/-! ## Private names -/

namespace PrivateName

variable {className name : Text}

/-- Whether a name is private to a class: it begins with two underscores and does not end with two.
-/
def isPrivate (name : Text) : Bool := name.startsWith "__" && !name.endsWith "__"

/-- The name that is declared for a name in a class: a private one is put behind an underscore and
the name of the class without its leading underscores, if anything is left of that. -/
def mangled (className name : Text) : Text :=
  let stem := className.dropWhile (CodePoint.is '_')
  if isPrivate name && !stem.isEmpty then ("_" : Text) ++ stem ++ name else name

/-- **A name is declared as it is written** unless it is private, in a class whose name is more than
underscores. -/
theorem mangled_eq_iff :
    mangled className name = name ↔ (isPrivate name = true → ∀ c ∈ className, c = '_') := by
  have hstem : (className.dropWhile (CodePoint.is '_')).isEmpty = true ↔
      ∀ c ∈ className, c = '_' := by
    rw [List.isEmpty_iff, List.dropWhile_eq_nil_iff]
    exact forall₂_congr fun c _ => decide_eq_true_iff
  rw [mangled, ← hstem]
  split
  · next h =>
    rw [Bool.and_eq_true, Bool.not_eq_true'] at h
    refine iff_of_false (fun he => ?_) fun hempty => Bool.eq_false_iff.1 h.2 (hempty h.1)
    -- something stands in front of the name
    have hlength := congrArg List.length he
    have hone : (Text.ofString "_").length = 1 := rfl
    simp only [List.length_append, hone] at hlength
    omega
  · next h =>
    refine iff_of_true rfl fun hprivate => ?_
    simpa [hprivate] using h

end PrivateName

open PrivateName (isPrivate mangled mangled_eq_iff)

namespace ClassText

/-- The names that the body of a class declares, all names taken in their normal form. A class with
the name `__debug__` in it is none. -/
def declares? (normal : Text → Text) (c : ClassText) : Option (List Text) :=
  let names := c.attributes.map fun a => normal a.name
  if names.contains "__debug__" then none else some (names.map (mangled (normal c.name)))

/-- **A class declares its names as they are written** exactly when none of them is `__debug__`
and private ones are in no class whose name is more than underscores. -/
theorem declares?_eq_iff (normal : Text → Text) (c : ClassText)
    (h : ∀ a ∈ c.attributes, normal a.name = a.name) :
    c.declares? normal = some (c.attributes.map (·.name)) ↔ ∀ a ∈ c.attributes,
      a.name ≠ "__debug__" ∧ (isPrivate a.name = true → ∀ e ∈ normal c.name, e = '_') := by
  have hnames : (c.attributes.map fun a => normal a.name) = c.attributes.map (·.name) :=
    List.map_congr_left h
  rw [declares?, hnames]
  split
  · next hmem =>
    obtain ⟨a, ha, hname⟩ := List.mem_map.1 (List.contains_iff_mem.1 hmem)
    exact iff_of_false nofun fun hall => (hall a ha).1 hname
  · next hmem =>
    have hne : ∀ a ∈ c.attributes, a.name ≠ "__debug__" := fun a ha hname =>
      hmem (List.contains_iff_mem.2 (hname ▸ List.mem_map_of_mem ha))
    rw [Option.some.injEq, List.map_map, List.map_eq_map_iff]
    refine forall₂_congr fun a ha => ?_
    rw [Function.comp_apply, mangled_eq_iff, and_iff_right (hne a ha)]

end ClassText

namespace TypedDict

variable {s : Shape} {useOptional : Bool} {root : Text} {d : Declaration} {fields : List Field}

/-- **The keys of a typed dictionary.** Under an identifier for the root, a record is declared for
an object with its keys. If all of them are identifiers and no keywords, its text is that of a class
with the keys for names. Where names are in their normal form, the class declares exactly the keys,
in their order, unless one of them is `__debug__`, or is private while the name of the class is more
than underscores. Otherwise the text is that of a call. -/
theorem class_keys (hroot : root.isIdentifier = true) (hd : d ∈ s.declarations useOptional root)
    (hb : d.body = .record fields) :
    (∃ r ∈ s.records, fields.map (·.key) = Entries.names r.fields) ∧
    (isClass fields = true → ∃ c, ClassText.read? (declare d) = some c ∧ c.name = d.name ∧
      c.attributes.map (·.name) = fields.map (·.key) ∧
      ∀ normal : Text → Text, (∀ f ∈ fields, normal f.key = f.key) →
        (c.declares? normal = some (fields.map (·.key)) ↔ ∀ f ∈ fields,
          f.key ≠ "__debug__" ∧ (isPrivate f.key = true → ∀ e ∈ normal d.name, e = '_'))) ∧
    (isClass fields = false →
      declare d = Text.join "\n" (callText d (fields.map callLine))) := by
  have hid := Shape.identified_declarations hroot d hd
  have hfields := Declaration.fields_of_record hb
  refine ⟨Shape.exists_keys hd hb, fun hclass => ⟨classText d, read?_declare hid hb hclass, rfl, ?_,
    fun normal h => ?_⟩, declare_eq_call hb⟩
  · rw [classText, hfields, List.map_map]
    rfl
  · have hiff := ClassText.declares?_eq_iff normal (classText d)
    rw [classText, hfields, List.forall_mem_map, List.map_map, List.forall_mem_map] at hiff
    rw [classText, hfields]
    exact hiff h

/-- An object with keys that begin with underscores. -/
def underscoreSample : Value := .object [("_a", .bool true), ("__b__", .null)]

/-- The declaration of its root. -/
def underscoreRoot : Declaration :=
  ⟨"Root", .record [⟨"_a", .boolean, .boolean, false⟩, ⟨"__b__", .null, .null, false⟩], []⟩

theorem class_keys_underscoreSample :
    ∃ c, ClassText.read? (declare underscoreRoot) = some c ∧
      c.declares? id = some (underscoreRoot.fields.map (·.key)) := by
  have hd : underscoreRoot ∈ (Shape.of underscoreSample).declarations true "Root" := by
    decide +kernel
  obtain ⟨-, hclass, -⟩ := class_keys (by decide) hd rfl
  obtain ⟨c, hread, -, -, hiff⟩ := hclass (by decide +kernel)
  exact ⟨c, hread, (hiff id fun _ _ => rfl).2 (by decide +kernel)⟩

/-- An object with a private key. -/
def privateSample : Value := .object [("__a", .number (.int 1))]

/-- The declaration of its root. -/
def privateRoot : Declaration := ⟨"Root", .record [⟨"__a", .number, .number, false⟩], []⟩

/-- A class does not declare a private key. -/
theorem not_class_keys_private :
    privateRoot ∈ (Shape.of privateSample).declarations true "Root" ∧
    ∀ c, ClassText.read? (declare privateRoot) = some c →
      c.declares? id ≠ some (privateRoot.fields.map (·.key)) := by
  have hread : (ClassText.read? (declare privateRoot)).bind (·.declares? id) =
      some [("_Root__a" : Text)] := by
    decide +kernel
  refine ⟨by decide +kernel, fun c hc hkeys => ?_⟩
  rw [hc, Option.bind_some, hkeys] at hread
  exact absurd hread (by decide)

end TypedDict

end TypeSketch
