import TypeSketch.Proofs.Listing

/-!
# Types read off their spelling

* `IsNestedName`: what nested types are called below a plain root.
* `TypeExpr.layer`: whether a type is a list, a type or null, or neither.
* `Legible`: a spelling that shows the layers of a type.
* `Legible.injective`: **a legible spelling tells the type**, when its names are those of nested
  types.
* `TypeScript.legible`, `Jsdoc.legible`, `TypeHint.legible`: three spellings are legible.
-/

namespace TypeSketch

/-! ## Ends of texts -/

namespace Text

variable {t u start tail : Text} {c : CodePoint}

theorem contains_iff_infix : t.contains u = true ↔ u <:+: t := by
  induction t with
  | nil => cases u <;> simp [contains]
  | cons c t ih =>
    rw [contains, Bool.or_eq_true, List.isPrefixOf_iff_prefix, List.infix_cons_iff]
    exact or_congr Iff.rfl ih

theorem endsWith_append (t tail : Text) : (t ++ tail).endsWith tail = true :=
  List.isSuffixOf_iff_suffix.2 (List.suffix_append t tail)

theorem endsWith_of_not_mem (hc : c ∈ tail) (h : c ∉ t) : t.endsWith tail = false :=
  Bool.eq_false_iff.2 fun he => h ((List.isSuffixOf_iff_suffix.1 he).subset hc)

/-- Two texts with different last code points do not end a text both. -/
theorem endsWith_of_getLast?_ne (hu : u ≠ []) (htail : tail ≠ [])
    (h : u.getLast? ≠ tail.getLast?) : (t ++ u).endsWith tail = false := by
  refine Bool.eq_false_iff.2 fun he => h ?_
  obtain ⟨front, hfront⟩ := List.isSuffixOf_iff_suffix.1 he
  rw [← List.getLast?_append_of_ne_nil t hu, ← hfront, List.getLast?_append_of_ne_nil _ htail]

theorem append_ne_of_getLast?_ne (hu : u ≠ []) (h : u.getLast? ≠ tail.getLast?) :
    t ++ u ≠ tail := by
  rintro rfl
  exact h (List.getLast?_append_of_ne_nil t hu).symm

theorem startsWith_append (start t : Text) : (start ++ t).startsWith start = true :=
  List.isPrefixOf_iff_prefix.2 (List.prefix_append start t)

theorem startsWith_of_not_mem (hc : c ∈ start) (h : c ∉ t) : t.startsWith start = false :=
  Bool.eq_false_iff.2 fun he => h ((List.isPrefixOf_iff_prefix.1 he).subset hc)

end Text

/-! ## Names of nested types -/

namespace TypeScript

variable {t u : Text}

theorem continuesName_of_isPlainName (h : isPlainName t = true) :
    ∀ c ∈ t, continuesName c = true := by
  cases t with
  | nil => cases h
  | cons c t =>
    rw [isPlainName, Bool.and_eq_true] at h
    refine List.forall_mem_cons.2 ⟨?_, List.all_eq_true.1 h.2⟩
    rw [continuesName, h.1, Bool.true_or]

/-- What no name goes on with is not in a name. -/
theorem not_mem_of_isPlainName (h : isPlainName t = true) {c : CodePoint}
    (hc : continuesName c = false) : c ∉ t := by
  intro hmem
  rw [continuesName_of_isPlainName h c hmem] at hc
  cases hc

theorem isPlainName_append (h : isPlainName t = true) (hu : ∀ c ∈ u, continuesName c = true) :
    isPlainName (t ++ u) = true := by
  cases t with
  | nil => cases h
  | cons c t =>
    rw [isPlainName, Bool.and_eq_true] at h
    rw [List.cons_append, isPlainName, Bool.and_eq_true, List.all_append, Bool.and_eq_true]
    exact ⟨h.1, h.2, List.all_eq_true.2 hu⟩

end TypeScript

/-- **What nested types are called**: a plain name with the mark of nested types in it. -/
structure IsNestedName (name : Text) : Prop where
  plain : TypeScript.isPlainName name = true
  marked : ("Nested" : Text) <:+: name

theorem IsNestedName.not_mem {name : Text} (h : IsNestedName name) {c : CodePoint}
    (hc : TypeScript.continuesName c = false) : c ∉ name :=
  TypeScript.not_mem_of_isPlainName h.plain hc

theorem isNestedName_nestedName {root : Text} (h : TypeScript.isPlainName root = true) (i : Nat) :
    IsNestedName (nestedName root i) := by
  obtain ⟨tail, htail, hdigits⟩ := nestedName_eq root i
  rw [htail]
  refine ⟨TypeScript.isPlainName_append (TypeScript.isPlainName_append h (by decide)) ?_,
    List.infix_append _ _ _⟩
  intro c hc
  rw [TypeScript.continuesName, hdigits c hc, Bool.or_true]

namespace TypeExpr

/-- Whether all declared types that a type refers to are nested ones. -/
def NamesNested (t : TypeExpr) : Prop := ∀ n ∈ t.names, IsNestedName n

theorem NamesNested.named {n : Text} (h : (named n).NamesNested) : IsNestedName n :=
  h n List.mem_cons_self

/-- How a type is put together. -/
inductive Layer where
  | plain
  | list
  | orNull
deriving DecidableEq

/-- The outermost layer of a type. -/
def layer : TypeExpr → Layer
  | .list _ => .list
  | .orNull _ => .orNull
  | _ => .plain

/-- The types without parts and names. -/
def constants : List TypeExpr := [.null, .text, .number, .boolean, .anyObject, .anyList]

theorem constant_or_named {t : TypeExpr} (h : t.layer = .plain) :
    t ∈ constants ∨ ∃ n, t = .named n := by
  cases t with
  | named n => exact .inr ⟨n, rfl⟩
  | list | orNull => cases h
  | _ => exact .inl (by decide)

end TypeExpr

/-! ## Legible spellings -/

open TypeExpr (Layer constants)

/-- What names are written with, and some signs. -/
def isNameOr (signs : Text) (c : CodePoint) : Bool := TypeScript.continuesName c || signs.elem c

theorem mem_wrapped {signs : Text} (front t back : Text)
    (hf : front.all (isNameOr signs) = true) (hb : back.all (isNameOr signs) = true) :
    ∀ c ∈ front ++ t ++ back, c ∈ t ∨ isNameOr signs c = true := by
  intro c hc
  rcases List.mem_append.1 hc with hc | hc
  · rcases List.mem_append.1 hc with hc | hc
    · exact .inr (List.all_eq_true.1 hf c hc)
    · exact .inl hc
  · exact .inr (List.all_eq_true.1 hb c hc)

/-- **A spelling that shows the layers of a type.** A name stands for itself, the other types
without parts are spelled in different ways and like no nested name, and what is around the part of
a type can be told from the text. Besides names there are only some signs. -/
structure Legible (spell : TypeExpr → Text) (layerOf : Text → Layer) (signs : Text) : Prop where
  spell_named : ∀ n, spell (.named n) = n
  nodup_constants : (constants.map spell).Nodup
  unmarked : ∀ t ∈ constants, ¬ ("Nested" : Text) <:+: spell t
  layerOf_spell : ∀ t : TypeExpr, t.NamesNested → layerOf (spell t) = t.layer
  list_inj : ∀ t u, spell (.list t) = spell (.list u) → spell t = spell u
  orNull_inj : ∀ t u, spell (.orNull t) = spell (.orNull u) → spell t = spell u
  mem_constant : ∀ t ∈ constants, ∀ c ∈ spell t, isNameOr signs c = true
  mem_list : ∀ t, ∀ c ∈ spell (.list t), c ∈ spell t ∨ isNameOr signs c = true
  mem_orNull : ∀ t, ∀ c ∈ spell (.orNull t), c ∈ spell t ∨ isNameOr signs c = true

namespace Legible

variable {spell : TypeExpr → Text} {layerOf : Text → Layer} {signs : Text} {t u : TypeExpr}

/-- The layer of a type is told by its text. -/
theorem layer_eq (h : Legible spell layerOf signs) (ht : t.NamesNested) (hu : u.NamesNested)
    (he : spell t = spell u) : t.layer = u.layer := by
  rw [← h.layerOf_spell t ht, he, h.layerOf_spell u hu]

/-- Types without parts are told by their text. -/
theorem eq_of_plain (h : Legible spell layerOf signs) (ht : t.NamesNested) (hu : u.NamesNested)
    (hlt : t.layer = .plain) (hlu : u.layer = .plain) (he : spell t = spell u) : t = u := by
  rcases TypeExpr.constant_or_named hlt with hct | ⟨n, rfl⟩
  · rcases TypeExpr.constant_or_named hlu with hcu | ⟨m, rfl⟩
    · exact List.inj_on_of_nodup_map h.nodup_constants hct hcu he
    · rw [h.spell_named] at he
      exact absurd (he ▸ hu.named.marked) (h.unmarked t hct)
  · rw [h.spell_named] at he
    rcases TypeExpr.constant_or_named hlu with hcu | ⟨m, rfl⟩
    · exact absurd (he ▸ ht.named.marked) (h.unmarked u hcu)
    · rw [h.spell_named] at he
      rw [he]

/-- **A legible spelling tells the type.** -/
theorem injective (h : Legible spell layerOf signs) (ht : t.NamesNested) (hu : u.NamesNested)
    (he : spell t = spell u) : t = u := by
  -- on the first type; the text tells that the other one has the same outermost layer
  induction t generalizing u with
  | list t ih =>
    have hl := h.layer_eq ht hu he
    cases u with
    | list u => rw [ih (u := u) ht hu (h.list_inj t u he)]
    | _ => cases hl
  | orNull t ih =>
    have hl := h.layer_eq ht hu he
    cases u with
    | orNull u => rw [ih (u := u) ht hu (h.orNull_inj t u he)]
    | _ => cases hl
  | _ =>
    have hl := h.layer_eq ht hu he
    exact h.eq_of_plain ht hu rfl hl.symm he

/-- A type is spelled with the names it refers to and signs. -/
theorem mem_name_or_sign (h : Legible spell layerOf signs) (t : TypeExpr) :
    ∀ c ∈ spell t, (∃ n ∈ t.names, c ∈ n) ∨ isNameOr signs c = true := by
  induction t with
  | named n =>
    intro c hc
    rw [h.spell_named] at hc
    exact .inl ⟨n, List.mem_cons_self, hc⟩
  | list t ih => exact fun c hc => (h.mem_list t c hc).elim (ih c) .inr
  | orNull t ih => exact fun c hc => (h.mem_orNull t c hc).elim (ih c) .inr
  | _ => exact fun c hc => .inr (h.mem_constant _ (by decide) c hc)

/-- What is in none of these names and no sign is not in the text of a type. -/
theorem not_mem_of_names (h : Legible spell layerOf signs) {c : CodePoint}
    (hc : isNameOr signs c = false) (hn : ∀ n ∈ t.names, c ∉ n) : c ∉ spell t := by
  intro hmem
  rcases h.mem_name_or_sign t c hmem with ⟨n, hname, hcn⟩ | hsign
  · exact hn n hname hcn
  · exact Bool.eq_false_iff.1 hc hsign

/-- A type that refers to nested types is spelled with what names are written with, and signs. -/
theorem mem_spell (h : Legible spell layerOf signs) (ht : t.NamesNested) :
    ∀ c ∈ spell t, isNameOr signs c = true := by
  intro c hc
  rcases h.mem_name_or_sign t c hc with ⟨n, hn, hcn⟩ | hsign
  · rw [isNameOr, TypeScript.continuesName_of_isPlainName (ht n hn).plain c hcn, Bool.true_or]
  · exact hsign

/-- Anything else does not occur in the text of a type. -/
theorem not_mem_spell (h : Legible spell layerOf signs) (ht : t.NamesNested) {c : CodePoint}
    (hc : isNameOr signs c = false) : c ∉ spell t := fun hmem =>
  Bool.eq_false_iff.1 hc (h.mem_spell ht c hmem)

end Legible

/-! ## TypeScript -/

namespace TypeScript

/-- The outermost layer of a type, by the end of its text. -/
def layerOf (t : Text) : Layer :=
  if t.endsWith " | null" then .orNull
  else if t.endsWith "[]" && t ≠ "unknown[]" then .list
  else .plain

theorem spell_list_eq (t : TypeExpr) : ∃ front, spell (.list t) = front ++ "[]" := by
  rw [spell]
  split
  · exact ⟨("(" : Text) ++ spell t ++ ")", by simp [Text.ofString]⟩
  · exact ⟨spell t, rfl⟩

theorem spell_ne_unknown {t : TypeExpr} (ht : t.NamesNested) : spell t ≠ "unknown" := by
  cases t with
  | named n =>
    have hmarked := ht.named.marked
    rintro rfl
    exact absurd hmarked (by decide +kernel)
  | list t =>
    obtain ⟨front, h⟩ := spell_list_eq t
    rw [h]
    exact Text.append_ne_of_getLast?_ne (by decide) (by decide)
  | orNull t => exact Text.append_ne_of_getLast?_ne (by decide) (by decide)
  | _ => decide

theorem spell_list_ne {t : TypeExpr} (ht : t.NamesNested) : spell (.list t) ≠ "unknown[]" := by
  rw [spell]
  split
  · rintro h
    cases h
  · exact fun h => spell_ne_unknown ht ((List.append_left_inj ("[]" : Text)).1 h)

theorem layerOf_spell (t : TypeExpr) (ht : t.NamesNested) : layerOf (spell t) = t.layer := by
  cases t with
  | named n =>
    rw [spell, layerOf,
      Text.endsWith_of_not_mem (c := ' ') (by decide) (ht.named.not_mem (by decide)),
      Text.endsWith_of_not_mem (c := ']') (by decide) (ht.named.not_mem (by decide))]
    rfl
  | list t =>
    obtain ⟨front, h⟩ := spell_list_eq t
    have hne : decide (spell (.list t) ≠ "unknown[]") = true := decide_eq_true (spell_list_ne ht)
    rw [layerOf, hne, h, Text.endsWith_of_getLast?_ne (by decide) (by decide) (by decide),
      Text.endsWith_append]
    rfl
  | orNull t =>
    rw [spell, layerOf, Text.endsWith_append]
    rfl
  | _ => decide

/-- Parentheses stand around an element type exactly when it holds a bar, and they keep it. -/
theorem spell_list_inj (t u : TypeExpr) (h : spell (.list t) = spell (.list u)) :
    spell t = spell u := by
  -- an element type without a bar is not one with a bar in parentheses
  have hbar : ∀ x y : Text, x.contains " | " = true → y.contains " | " = false →
      ("(" : Text) ++ x ++ ")[]" ≠ y ++ "[]" := by
    intro x y hx hy h
    have hparens : ("(" : Text) ++ x ++ ")" = y := by
      refine (List.append_left_inj ("[]" : Text)).1 ?_
      rw [← h, List.append_assoc]
      rfl
    rw [← hparens] at hy
    have := Text.contains_iff_infix.2 <|
      (Text.contains_iff_infix.1 hx).trans (List.infix_append ("(" : Text) x ")")
    exact Bool.eq_false_iff.1 hy this
  rw [spell, spell] at h
  by_cases ht : (spell t).contains " | " = true
  · by_cases hu : (spell u).contains " | " = true
    · rw [if_pos ht, if_pos hu] at h
      exact List.append_cancel_left (List.append_cancel_right h)
    · rw [if_pos ht, if_neg hu] at h
      exact absurd h (hbar _ _ ht (by simpa using hu))
  · by_cases hu : (spell u).contains " | " = true
    · rw [if_neg ht, if_pos hu] at h
      exact absurd h.symm (hbar _ _ hu (by simpa using ht))
    · rw [if_neg ht, if_neg hu] at h
      exact List.append_cancel_right h

theorem legible : Legible spell layerOf " |[]()<,>" where
  spell_named _ := rfl
  nodup_constants := by decide +kernel
  unmarked := by decide +kernel
  layerOf_spell := layerOf_spell
  list_inj := spell_list_inj
  orNull_inj _ _ := List.append_cancel_right
  mem_constant := by decide +kernel
  mem_list t := by
    rw [spell]
    split
    · exact mem_wrapped _ _ _ (by decide) (by decide)
    · exact mem_wrapped [] _ _ (by decide) (by decide)
  mem_orNull t := mem_wrapped [] _ _ (by decide) (by decide)

end TypeScript

/-! ## JSDoc -/

namespace Jsdoc

/-- The outermost layer of a type, by the start of its text. -/
def layerOf (t : Text) : Layer :=
  if t.startsWith "(" then .orNull
  else if t.startsWith "Array<" && t ≠ "Array<*>" then .list
  else .plain

theorem spell_list_ne {t : TypeExpr} (ht : t.NamesNested) : spell (.list t) ≠ "Array<*>" := by
  have hstar : spell t ≠ "*" := by
    cases t with
    | named n =>
      have hmarked := ht.named.marked
      rintro rfl
      exact absurd hmarked (by decide +kernel)
    | list | orNull =>
      rintro h
      cases h
    | _ => decide
  intro h
  have hclosed : ("Array<" : Text) ++ spell t ++ (">" : Text) = ("Array<" : Text) ++ "*" ++ ">" := h
  exact hstar (List.append_cancel_left (List.append_cancel_right hclosed))

theorem layerOf_spell (t : TypeExpr) (ht : t.NamesNested) : layerOf (spell t) = t.layer := by
  cases t with
  | named n =>
    rw [spell, layerOf,
      Text.startsWith_of_not_mem (c := '(') (by decide) (ht.named.not_mem (by decide)),
      Text.startsWith_of_not_mem (c := '<') (by decide) (ht.named.not_mem (by decide))]
    rfl
  | list t =>
    have hne : decide (spell (.list t) ≠ "Array<*>") = true := decide_eq_true (spell_list_ne ht)
    rw [layerOf, hne, spell, List.append_assoc, Text.startsWith_append]
    rfl
  | orNull t =>
    rw [spell, layerOf, List.append_assoc, Text.startsWith_append]
    rfl
  | _ => decide

theorem legible : Legible spell layerOf "<>*(|)" where
  spell_named _ := rfl
  nodup_constants := by decide +kernel
  unmarked := by decide +kernel
  layerOf_spell := layerOf_spell
  list_inj _ _ h := List.append_cancel_left (List.append_cancel_right h)
  orNull_inj _ _ h := List.append_cancel_left (List.append_cancel_right h)
  mem_constant := by decide +kernel
  mem_list t := mem_wrapped _ _ _ (by decide) (by decide)
  mem_orNull t := mem_wrapped _ _ _ (by decide) (by decide)

end Jsdoc

/-! ## Python -/

namespace TypeHint

/-- The outermost layer of a type, by the end of its text. -/
def layerOf (t : Text) : Layer :=
  if t.endsWith " | None" then .orNull
  else if t.endsWith "]" then .list
  else .plain

theorem layerOf_spell (t : TypeExpr) (ht : t.NamesNested) : layerOf (spell t) = t.layer := by
  cases t with
  | named n =>
    rw [spell, layerOf,
      Text.endsWith_of_not_mem (c := ' ') (by decide) (ht.named.not_mem (by decide)),
      Text.endsWith_of_not_mem (c := ']') (by decide) (ht.named.not_mem (by decide))]
    rfl
  | list t =>
    rw [layerOf, spell, Text.endsWith_of_getLast?_ne (by decide) (by decide) (by decide),
      Text.endsWith_append]
    rfl
  | orNull t =>
    rw [spell, layerOf, Text.endsWith_append]
    rfl
  | _ => decide

theorem legible : Legible spell layerOf " |[]" where
  spell_named _ := rfl
  nodup_constants := by decide +kernel
  unmarked := by decide +kernel
  layerOf_spell := layerOf_spell
  list_inj _ _ h := List.append_cancel_left (List.append_cancel_right h)
  orNull_inj _ _ := List.append_cancel_right
  mem_constant := by decide +kernel
  mem_list t := mem_wrapped _ _ _ (by decide) (by decide)
  mem_orNull t := mem_wrapped [] _ _ (by decide) (by decide)

end TypeHint

end TypeSketch
