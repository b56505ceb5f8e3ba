import Mathlib.Data.List.Infix
import TypeSketch.Proofs.Attributes
import TypeSketch.Proofs.Writable

/-!
# Classes read off their text

What a class says, read from its text alone, line by line.

* `AttributeText`, `ClassText`: an attribute and a class as their text says them.
* `ClassText.read?`: **the class that a text says.** A name is read as far as an identifier goes,
  that of an attribute up to the colon, and a default stands behind an equals sign.
* `ClassText.read?_write`: reading gives what was written, if no part of it holds a sign that would
  end it.
* `Shape.identified_declarations`: what is declared and referred to has identifiers for names.
* `Shape.exists_record`: what is declared as a record is an object with these properties.
* `TypeHint.not_mem_spell`: what a type is spelled without.
-/

namespace TypeSketch

/-! ## Cutting texts -/

namespace Text

variable {t x : Text} {c : CodePoint}

/-- The text in front of the first occurrence of a code point, and the text from there on. -/
def cutAt (c : CodePoint) (t : Text) : Text × Text := t.span fun d => d ≠ c

/-- The text behind a beginning. -/
def behind? (start t : Text) : Option Text := t.dropPrefix? start

/-- The text in front of an end. -/
def inFront? (tail t : Text) : Option Text := t.dropSuffix? tail

theorem behind?_append (start t : Text) : behind? start (start ++ t) = some t :=
  List.dropPrefix?_append_of_beq t (beq_self_eq_true start)

theorem inFront?_append (tail t : Text) : inFront? tail (t ++ tail) = some t :=
  List.dropSuffix?_eq_some_iff.2 ⟨tail, rfl, beq_self_eq_true tail⟩

theorem span_append {p : CodePoint → Bool} (ht : ∀ c ∈ t, p c = true)
    (hx : ∀ c ∈ x.head?, p c = false) : (t ++ x).span p = (t, x) := by
  have hstop : x.takeWhile p = [] ∧ x.dropWhile p = x := by
    cases x with
    | nil => exact ⟨rfl, rfl⟩
    | cons d x =>
      have hd : ¬ p d = true := by simp [hx d rfl]
      exact ⟨List.takeWhile_cons_of_neg hd, List.dropWhile_cons_of_neg hd⟩
  rw [List.span_eq_takeWhile_dropWhile, List.takeWhile_append_of_pos ht,
    List.dropWhile_append_of_pos ht, hstop.1, hstop.2, List.append_nil]

theorem cutAt_append (ht : c ∉ t) (hx : ∀ d ∈ x.head?, d = c) : cutAt c (t ++ x) = (t, x) :=
  span_append (fun _ hd => decide_eq_true fun h => ht (h ▸ hd))
    (fun d hd => decide_eq_false fun h => h (hx d hd))

end Text

/-! ## Attributes and classes -/

/-- An attribute as its line in a class says it. -/
structure AttributeText where
  name : Text
  hint : Text
  /-- What the attribute is set to, if it is set. -/
  initial : Option Text := none
deriving DecidableEq

/-- A class as its text says it. -/
structure ClassText where
  /-- The lines in front of the class. -/
  decorators : List Text := []
  name : Text
  /-- What stands behind the name on its line. -/
  bases : Text
  attributes : List AttributeText
deriving DecidableEq

namespace AttributeText

/-- The attribute of a line: behind four blanks the name, behind a colon the type, and behind an
equals sign the default. -/
def read? (line : Text) : Option AttributeText := do
  let (name, t) := Text.cutAt ':' (← Text.behind? "    " line)
  let (hint, t) := Text.cutAt '=' (← Text.behind? ": " t)
  if t.isEmpty then some { name, hint }
  else some { name, hint := (← Text.inFront? " " hint), initial := (← Text.behind? "= " t) }

/-- The line of an attribute. -/
def write (a : AttributeText) : Text :=
  ("    " : Text) ++ (a.name ++ ((": " : Text) ++ (a.hint ++
    match a.initial with
    | none => []
    | some t => (" = " : Text) ++ t)))

/-- No part of an attribute holds a sign that would end it. -/
structure Plain (a : AttributeText) : Prop where
  name : (':' : CodePoint) ∉ a.name ∧ ('\n' : CodePoint) ∉ a.name
  hint : ('=' : CodePoint) ∉ a.hint ∧ ('\n' : CodePoint) ∉ a.hint
  initial : ∀ t ∈ a.initial, ('\n' : CodePoint) ∉ t

theorem Plain.newline_not_mem {a : AttributeText} (h : a.Plain) :
    ('\n' : CodePoint) ∉ a.write := by
  obtain ⟨name, hint, initial⟩ := a
  obtain ⟨⟨-, hname⟩, ⟨-, hhint⟩, hinitial⟩ := h
  simp only [write, List.mem_append, not_or]
  refine ⟨by decide, hname, by decide, hhint, ?_⟩
  cases initial with
  | none => exact List.not_mem_nil
  | some t => exact fun hmem => (List.mem_append.1 hmem).elim (by decide) (hinitial t rfl)

theorem read?_write {a : AttributeText} (h : a.Plain) : read? a.write = some a := by
  obtain ⟨name, hint, initial⟩ := a
  obtain ⟨⟨hname, -⟩, ⟨hhint, -⟩, -⟩ := h
  have hcolon : ∀ x : Text, Text.cutAt ':' (name ++ ((": " : Text) ++ x)) =
      (name, (": " : Text) ++ x) := fun x =>
    Text.cutAt_append hname (by rintro d ⟨⟩; rfl)
  simp only [read?, write, Text.behind?_append, Option.bind_eq_bind, Option.bind_some, hcolon]
  cases initial with
  | none =>
    rw [Text.cutAt_append hhint (by simp)]
    rfl
  | some t =>
    have hblank : ('=' : CodePoint) ∉ hint ++ (" " : Text) := fun hmem =>
      (List.mem_append.1 hmem).elim hhint (by decide)
    have hequals : hint ++ ((" = " : Text) ++ t) =
        (hint ++ (" " : Text)) ++ (("= " : Text) ++ t) := by
      rw [List.append_assoc]
      rfl
    dsimp only
    rw [hequals, Text.cutAt_append hblank (by rintro d ⟨⟩; rfl)]
    simp only [Text.inFront?_append, Text.behind?_append]
    rfl

end AttributeText

namespace ClassText

/-- The class that a text says: lines that begin with `@`, a line with its name, and a line for each
attribute. -/
def read? (t : Text) : Option ClassText :=
  match (t.splitOn '\n').span (·.startsWith "@") with
  | (_, []) => none
  | (decorators, header :: body) => do
    let (name, bases) := (← Text.behind? "class " header).span CodePoint.continuesIdentifier
    some { decorators, name, bases, attributes := (← body.mapM AttributeText.read?) }

/-- The text of a class. -/
def write (c : ClassText) : Text :=
  Text.join "\n" (c.decorators ++
    (("class " : Text) ++ (c.name ++ c.bases)) :: c.attributes.map AttributeText.write)

/-- No part of a class holds a sign that would end it. -/
structure Plain (c : ClassText) : Prop where
  decorators : ∀ t ∈ c.decorators, t.startsWith "@" = true ∧ ('\n' : CodePoint) ∉ t
  name : ∀ d ∈ c.name, d.continuesIdentifier = true
  bases : (∀ d ∈ c.bases.head?, d.continuesIdentifier = false) ∧ ('\n' : CodePoint) ∉ c.bases
  attributes : ∀ a ∈ c.attributes, a.Plain

theorem mapM_read?_write {as : List AttributeText} (h : ∀ a ∈ as, a.Plain) :
    (as.map AttributeText.write).mapM AttributeText.read? = some as := by
  induction as with
  | nil => rfl
  | cons a as ih =>
    rw [List.forall_mem_cons] at h
    rw [List.map_cons, List.mapM_cons, AttributeText.read?_write h.1, ih h.2]
    rfl

/-- **A class has its lines**: those in front of it, one with its name, and one for each attribute.
-/
theorem splitOn_write {c : ClassText} (h : c.Plain) : c.write.splitOn '\n' =
    c.decorators ++ (("class " : Text) ++ (c.name ++ c.bases)) ::
      c.attributes.map AttributeText.write := by
  have hlines : ∀ t ∈ c.decorators ++ (("class " : Text) ++ (c.name ++ c.bases)) ::
      c.attributes.map AttributeText.write, ('\n' : CodePoint) ∉ t := by
    refine List.forall_mem_append.2 ⟨fun t ht => (h.decorators t ht).2, List.forall_mem_cons.2
      ⟨?_, List.forall_mem_map.2 fun a ha => (h.attributes a ha).newline_not_mem⟩⟩
    rw [List.mem_append, List.mem_append]
    rintro (hmem | hmem | hmem)
    · exact absurd hmem (by decide)
    · exact absurd (h.name _ hmem) (by decide)
    · exact h.bases.2 hmem
  exact Text.splitOn_join (List.append_ne_nil_of_right_ne_nil _ (List.cons_ne_nil _ _)) hlines

/-- **Reading a class gives what was written.** -/
theorem read?_write {c : ClassText} (h : c.Plain) : read? c.write = some c := by
  have hcut := splitOn_write h
  obtain ⟨decorators, name, bases, attributes⟩ := c
  obtain ⟨hdecorators, hname, ⟨hbases, -⟩, hattributes⟩ := h
  -- the line with the name is no decorator
  have hspan : ∀ (ds : List Text) (header : Text) (body : List Text),
      (∀ t ∈ ds, t.startsWith "@" = true) → header.startsWith "@" = false →
      (ds ++ header :: body).span (·.startsWith "@") = (ds, header :: body) := by
    intro ds header body hds hheader
    rw [List.span_eq_takeWhile_dropWhile, List.takeWhile_append_of_pos hds,
      List.dropWhile_append_of_pos hds, List.takeWhile_cons_of_neg (by simp [hheader]),
      List.dropWhile_cons_of_neg (by simp [hheader]), List.append_nil]
  rw [read?, hcut, hspan _ _ _ (fun t ht => (hdecorators t ht).1) rfl]
  simp only [Text.behind?_append, Option.bind_eq_bind, Option.bind_some,
    Text.span_append hname hbases, mapM_read?_write hattributes]

end ClassText

/-! ## Names of declared types -/

theorem CodePoint.continuesIdentifier_of_isDigit {c : CodePoint} (h : c.isDigit = true) :
    c.continuesIdentifier = true := by
  have hdigits : ∀ n < 0x3A, 0x30 ≤ n →
      (identifierStarts.contains n || identifierTails.contains n) = true := by decide
  rw [isDigit, Bool.and_eq_true, decide_eq_true_eq, decide_eq_true_eq] at h
  exact hdigits c.val (Nat.lt_succ_of_le h.2) h.1

theorem isIdentifier_nestedName {root : Text} (h : root.isIdentifier = true) (i : Nat) :
    (nestedName root i).isIdentifier = true := by
  obtain ⟨tail, htail, hdigits⟩ := nestedName_eq root i
  rw [htail]
  exact Text.isIdentifier_append (Text.isIdentifier_append h (by decide)) fun c hc =>
    CodePoint.continuesIdentifier_of_isDigit (hdigits c hc)

/-- **A declaration with identifiers for names**, its own and those of the types it refers to. -/
structure Declaration.Identified (d : Declaration) : Prop where
  name : d.name.isIdentifier = true
  uses : ∀ n ∈ d.uses, n.isIdentifier = true

/-- **What is declared has identifiers for names**, if the root has one. -/
theorem Shape.identified_declarations {s : Shape} {useOptional : Bool} {root : Text}
    (hroot : root.isIdentifier = true) :
    ∀ d ∈ s.declarations useOptional root, d.Identified := by
  have hname : ∀ d ∈ s.declarations useOptional root, d.name.isIdentifier = true := by
    intro d hd
    have hmem := (names_declarations useOptional root s).mem_iff.1 (List.mem_map_of_mem hd)
    rcases List.mem_cons.1 hmem with h | h
    · rwa [h]
    · obtain ⟨i, -, hi⟩ := List.mem_map.1 h
      exact hi ▸ isIdentifier_nestedName hroot i
  intro d hd
  obtain ⟨before, after, h⟩ := List.append_of_mem hd
  refine ⟨hname d hd, fun n hn => ?_⟩
  -- what a declaration refers to is declared in front of it
  obtain ⟨e, he, rfl⟩ :=
    List.mem_map.1 (ordered_declarations useOptional root s before d after h n hn)
  exact hname e (h ▸ List.mem_append_left _ he)

theorem Declaration.fields_of_record {d : Declaration} {fields : List Field}
    (hb : d.body = .record fields) : d.fields = fields := by
  rw [Declaration.fields, hb]

/-- Only a record has fields. -/
theorem Declaration.body_of_mem_fields {d : Declaration} {f : Field} (hf : f ∈ d.fields) :
    d.body = .record d.fields := by
  rw [Declaration.fields] at hf ⊢
  cases hb : d.body with
  | «alias» t =>
    rw [hb] at hf
    cases hf
  | record fields => rfl

/-- **What is declared as a record is an object with these properties.** -/
theorem Shape.exists_record {s : Shape} {useOptional : Bool} {root : Text} {d : Declaration}
    {fields : List Field} (hd : d ∈ s.declarations useOptional root)
    (hb : d.body = .record fields) :
    ∃ r ∈ s.records, ∃ i, fields = r.recordFields useOptional (nestedName root) i := by
  rw [declarations_eq] at hd
  rcases List.mem_append.1 hd with hd | hd
  · obtain ⟨⟨r, k⟩, hr, rfl⟩ := List.mem_map.1 ((declaredBelow_perm s).mem_iff.1 hd)
    cases hb
    refine ⟨r, ?_, k + 1, rfl⟩
    rw [records_eq]
    exact List.mem_append_right _ (List.fst_mem_of_mem_zipIdx hr)
  · obtain rfl := List.mem_singleton.1 hd
    simp only [rootBody] at hb
    split at hb
    · next hr =>
      cases hb
      refine ⟨s, ?_, 0, rfl⟩
      rw [records_of_record hr]
      exact List.mem_cons_self
    · cases hb

/-- **Every object with properties is declared as a record of them.** -/
theorem Shape.exists_declared {s r : Shape} (useOptional : Bool) (root : Text)
    (hr : r ∈ s.records) : ∃ d ∈ s.declarations useOptional root, ∃ i,
      d.fields = r.recordFields useOptional (nestedName root) i := by
  rw [records_eq, List.mem_append] at hr
  rcases hr with hr | hr
  · split at hr
    · next hs =>
      obtain rfl := List.mem_singleton.1 hr
      refine ⟨⟨root, rootBody useOptional root r, nestedNames root r.recordsBelow.length⟩, ?_, 0, ?_⟩
      · rw [declarations_eq]
        exact List.mem_append_right _ List.mem_cons_self
      · rw [Declaration.fields, rootBody, if_pos hs]
    · cases hr
  · obtain ⟨k, hk⟩ := List.getElem?_of_mem hr
    exact ⟨_, mem_declarations hk, k + 1, rfl⟩

/-- The keys of a record are those of an object. -/
theorem Shape.exists_keys {s : Shape} {useOptional : Bool} {root : Text} {d : Declaration}
    {fields : List Field} (hd : d ∈ s.declarations useOptional root)
    (hb : d.body = .record fields) :
    ∃ r ∈ s.records, fields.map (·.key) = Entries.names r.fields := by
  obtain ⟨r, hr, i, rfl⟩ := exists_record hd hb
  exact ⟨r, hr, keys_fieldsFrom r.fields⟩

/-! ## Signs of types -/

theorem TypeExpr.names_withNull (t : TypeExpr) : t.withNull.names = t.names := by
  cases t <;> rfl

namespace TypeHint

/-- What types are spelled with, besides names. -/
def letters : Text := "NotRequired[None | str | float | bool | dict | list]"

/-- **Anything else that is in no name is not in the text of a type.** -/
theorem not_mem_spell {c : CodePoint} (hc : c ∉ letters) {t : TypeExpr}
    (ht : ∀ n ∈ t.names, c ∉ n) : c ∉ spell t := by
  have hword : ∀ w : Text, (∀ d ∈ w, d ∈ letters) → c ∉ w := fun w hw hmem => hc (hw c hmem)
  induction t with
  | named n => exact ht n List.mem_cons_self
  | list t ih =>
    rw [spell, List.mem_append, List.mem_append, not_or, not_or]
    exact ⟨⟨hword _ (by decide), ih ht⟩, hword _ (by decide)⟩
  | orNull t ih =>
    rw [spell, List.mem_append, not_or]
    exact ⟨ih ht, hword _ (by decide)⟩
  | _ => exact hword _ (by decide)

end TypeHint

namespace Declaration.Identified

variable {d : Declaration} {fields : List Field} {f : Field} {c : CodePoint}

theorem not_mem_name (h : d.Identified) (hc : c.continuesIdentifier = false) : c ∉ d.name :=
  Text.not_mem_of_isIdentifier h.name hc

/-- The text of the type of a field has nothing but letters and identifiers. -/
theorem not_mem_spell (h : d.Identified) (hb : d.body = .record fields) (hf : f ∈ fields)
    (hl : c ∉ TypeHint.letters) (hc : c.continuesIdentifier = false) :
    c ∉ TypeHint.spell f.type ∧ c ∉ TypeHint.spell f.type.withNull := by
  have hnames : ∀ n ∈ f.type.names, c ∉ n := by
    intro n hn
    refine Text.not_mem_of_isIdentifier (h.uses n ?_) hc
    rw [Declaration.uses, hb]
    exact List.mem_flatMap.2 ⟨f, hf, hn⟩
  refine ⟨TypeHint.not_mem_spell hl hnames, TypeHint.not_mem_spell hl ?_⟩
  rwa [TypeExpr.names_withNull]

end Declaration.Identified

end TypeSketch
