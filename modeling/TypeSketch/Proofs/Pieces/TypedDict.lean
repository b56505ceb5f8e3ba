import TypeSketch.Proofs.Pieces

/-!
# Typed dictionaries read off their text

A record is written as a class or as a call, another name for a type as an assignment.

* `TypedDict.classPieces`, `TypedDict.callPieces`: the fields of a record can be cut off.
* `TypedDict.pieces`: **the declarations of a module can be cut off**, and each shows what it was
  written for.
* `TypedDict.preamble_append_inj`: so can the imports.
-/

namespace TypeSketch

namespace TypedDict

open TypeHint (legible isPlainIdentifier layerOf)

variable {d e : Declaration} {f g : Field} {x y : Text}

/-- A colon is no part of a key that is written as a name. -/
theorem colon_not_mem {key : Text} (h : isPlainIdentifier key = true) :
    (':' : CodePoint) ∉ key := by
  rw [isPlainIdentifier, Bool.and_eq_true] at h
  cases key with
  | nil => exact List.not_mem_nil
  | cons c key =>
    have hid := h.1
    rw [Text.isIdentifier, Bool.and_eq_true] at hid
    intro hmem
    rcases List.mem_cons.1 hmem with rfl | hmem
    · exact absurd hid.1 (by decide)
    · exact absurd (List.all_eq_true.1 hid.2 _ hmem) (by decide)

/-- An annotation is written with names and the signs of types. -/
theorem mem_hint (hf : f.Writable) : ∀ c ∈ hint f, isNameOr " |[]" c = true := by
  intro c hc
  rw [hint] at hc
  split at hc
  · exact (mem_wrapped _ _ _ (by decide) (by decide) c hc).elim (legible.mem_spell hf.type c) id
  · exact legible.mem_spell hf.type c hc

/-- What may be missing is told from a type, which does not look like that. -/
theorem hint_inj (hf : f.Writable) (hg : g.Writable) (h : hint f = hint g) :
    f.type = g.type ∧ f.optional = g.optional := by
  have hne : ∀ {t : TypeExpr} (u : TypeExpr), t.NamesNested →
      TypeHint.spell t ≠ ("NotRequired[" : Text) ++ TypeHint.spell u ++ "]" := by
    intro t u ht h
    -- it ends like a list, but does not begin like one
    have hlayer := legible.layerOf_spell t ht
    rw [h, layerOf, Text.endsWith_of_getLast?_ne (by decide) (by decide) (by decide),
      Text.endsWith_append] at hlayer
    cases t with
    | list t => cases h
    | _ => cases hlayer
  rw [hint, hint] at h
  cases hof : f.optional <;> cases hog : g.optional <;> simp only [hof, hog] at h
  · exact ⟨legible.injective hf.type hg.type h, rfl⟩
  · exact absurd h (hne _ hf.type)
  · exact absurd h.symm (hne _ hg.type)
  · exact ⟨legible.injective hf.type hg.type (List.append_cancel_left (List.append_cancel_right h)),
      rfl⟩

theorem hint_append_inj (hf : f.Writable) (hg : g.Writable)
    (hx : ∀ c ∈ x.head?, isNameOr " |[]" c = false) (hy : ∀ c ∈ y.head?, isNameOr " |[]" c = false)
    (h : hint f ++ x = hint g ++ y) : f.type = g.type ∧ f.optional = g.optional ∧ x = y := by
  obtain ⟨hhint, hend⟩ := Text.append_inj_of_class (mem_hint hf) (mem_hint hg) hx hy h
  obtain ⟨htype, hoptional⟩ := hint_inj hf hg hhint
  exact ⟨htype, hoptional, hend⟩

/-- What can follow a declaration: the end of the module, or two empty lines. -/
def EndsDeclaration (x : Text) : Prop := x = "\n" ∨ ∃ z, x = ("\n\n\n" : Text) ++ z

theorem EndsDeclaration.head? (h : EndsDeclaration x) : x.head? = some '\n' := by
  rcases h with rfl | ⟨z, rfl⟩ <;> rfl

theorem not_name_of_head? {c : CodePoint} (hx : x.head? = some c)
    (hc : isNameOr " |[]" c = false) : ∀ d ∈ x.head?, isNameOr " |[]" d = false := by
  rw [hx]
  rintro d ⟨⟩
  exact hc

/-- The lines of a class end with the declaration. -/
theorem classPieces : Pieces (fun f => ("\n" : Text) ++ classLine f) Field.shown
    (fun f => f.Writable ∧ isPlainIdentifier f.key = true) (fun x => x.head? = some '\n')
    EndsDeclaration where
  cut f g x y hf hg hx hy h := by
    simp only [classLine, List.append_assoc] at h
    obtain ⟨hkey, hrest⟩ := Text.append_inj_of_head? (colon_not_mem hf.2) (colon_not_mem hg.2)
      rfl rfl (List.append_cancel_left (List.append_cancel_left h))
    obtain ⟨htype, hoptional, hend⟩ := hint_append_inj hf.1 hg.1
      (not_name_of_head? hx (by decide)) (not_name_of_head? hy (by decide))
      (List.append_cancel_left hrest)
    exact ⟨Field.shown_eq hkey htype hoptional, hend⟩
  next _ _ := rfl
  next_of_end _ h := h.head?
  not_end f x := by
    rintro (h | ⟨z, h⟩) <;> cases h

/-- The lines of a call, each with a comma, end with its closing brace. -/
theorem callPieces : Pieces (fun f => ("\n" : Text) ++ callLine f) Field.shown Field.Writable
    (fun _ => True) (fun x => ∃ z, x = ("\n" : Text) ++ (("\x7d)" : Text) ++ z)) where
  cut f g x y hf hg _ _ h := by
    simp only [callLine, List.append_assoc] at h
    obtain ⟨hkey, hrest⟩ := Json.quote_append_inj hf.key hg.key
      (List.append_cancel_left (List.append_cancel_left h))
    obtain ⟨htype, hoptional, hend⟩ := hint_append_inj hf hg
      (not_name_of_head? (c := ',') rfl (by decide)) (not_name_of_head? (c := ',') rfl (by decide))
      (List.append_cancel_left hrest)
    exact ⟨Field.shown_eq hkey htype hoptional, List.append_cancel_left hend⟩
  next _ _ := trivial
  next_of_end _ _ := trivial
  not_end f x := by
    rintro ⟨z, h⟩
    cases h

theorem declare_of_alias {t : TypeExpr} (h : d.body = .alias t) (x : Text) :
    declare d ++ x = d.name ++ ((" = " : Text) ++ (TypeHint.spell t ++ x)) := by
  simp only [declare, h, TypeHint.declareAlias, List.append_assoc]

theorem declare_of_class {fs : List Field} (h : d.body = .record fs) (hc : isClass fs = true)
    (x : Text) : declare d ++ x = ("class" : Text) ++ ((" " : Text) ++ (d.name ++
      ("(TypedDict):" ++ (fs.flatMap (fun f => ("\n" : Text) ++ classLine f) ++ x)))) := by
  simp only [declare, h, hc, if_true, Text.join_cons, List.flatMap_map, List.append_assoc]
  rfl

theorem declare_of_call {fs : List Field} (h : d.body = .record fs) (hc : isClass fs = false)
    (x : Text) : declare d ++ x = d.name ++ ((" = " : Text) ++ (("TypedDict" : Text) ++ ("(" ++
      (Json.quote d.name ++ (", \x7b" ++ (fs.flatMap (fun f => ("\n" : Text) ++ callLine f) ++
        ("\n" ++ ("\x7d)" ++ x)))))))) := by
  simp only [declare, h, hc, Bool.false_eq_true, if_false, Text.join_lines, List.append_assoc]
  rfl

/-- A class does not look like a name with an equals sign behind it. -/
theorem class_append_ne {name other x y : Text} (hn : TypeScript.isPlainName name = true)
    (ho : (' ' : CodePoint) ∉ other) :
    ("class" : Text) ++ ((" " : Text) ++ (name ++ x)) ≠ other ++ ((" = " : Text) ++ y) := by
  intro h
  obtain ⟨-, hrest⟩ := Text.append_inj_of_head? (c := ' ') (by decide) ho rfl rfl h
  cases name with
  | nil => cases hn
  | cons c name =>
    rw [TypeScript.isPlainName, Bool.and_eq_true] at hn
    obtain rfl : c = '=' := (List.cons.inj (List.cons.inj hrest).2).1
    exact absurd hn.1 (by decide)

/-- A type with a new line behind it does not look like a call. -/
theorem spell_append_ne {t : TypeExpr} (ht : t.NamesNested) (hx : x.head? = some '\n') :
    TypeHint.spell t ++ x ≠ ("TypedDict" : Text) ++ (("(" : Text) ++ y) := by
  intro h
  have hrest := (Text.append_inj_of_class (legible.mem_spell ht) (by decide)
    (not_name_of_head? hx (by decide)) (not_name_of_head? (c := '(') rfl (by decide)) h).2
  rw [hrest] at hx
  cases hx

theorem body_cases (d : Declaration) : (∃ t, d.body = .alias t) ∨
    (∃ fs, d.body = .record fs ∧ isClass fs = true) ∨
      ∃ fs, d.body = .record fs ∧ isClass fs = false := by
  cases d.body with
  | «alias» t => exact .inl ⟨t, rfl⟩
  | record fs =>
    cases hc : isClass fs with
    | true => exact .inr (.inl ⟨fs, rfl, hc⟩)
    | false => exact .inr (.inr ⟨fs, rfl, hc⟩)

/-- Two names with a blank behind them are told from what follows. -/
theorem name_append_inj (hd : d.Writable) (he : e.Writable) (hx : x.head? = some ' ')
    (hy : y.head? = some ' ') (h : d.name ++ x = e.name ++ y) : d.name = e.name ∧ x = y :=
  Text.append_inj_of_head? (hd.not_mem_name (by decide)) (he.not_mem_name (by decide)) hx hy h

theorem alias_append_inj {t u : TypeExpr} (hd : d.Writable) (he : e.Writable)
    (hx : EndsDeclaration x) (hy : EndsDeclaration y) (hbd : d.body = .alias t)
    (hbe : e.body = .alias u) (h : declare d ++ x = declare e ++ y) :
    d.shown = e.shown ∧ x = y := by
  rw [declare_of_alias hbd, declare_of_alias hbe] at h
  have ht := hd.type t hbd
  have hu := he.type u hbe
  obtain ⟨hname, hrest⟩ := name_append_inj hd he rfl rfl h
  -- no type has a new line, which ends the declaration
  obtain ⟨htype, hend⟩ := Text.append_inj_of_class (legible.mem_spell ht) (legible.mem_spell hu)
    (not_name_of_head? hx.head? (by decide)) (not_name_of_head? hy.head? (by decide))
    (List.append_cancel_left hrest)
  refine ⟨Declaration.shown_eq hname ?_, hend⟩
  rw [hbd, hbe, legible.injective ht hu htype]

theorem class_append_inj {fs gs : List Field} (hd : d.Writable) (he : e.Writable)
    (hx : EndsDeclaration x) (hy : EndsDeclaration y) (hbd : d.body = .record fs)
    (hcd : isClass fs = true) (hbe : e.body = .record gs) (hce : isClass gs = true)
    (h : declare d ++ x = declare e ++ y) : d.shown = e.shown ∧ x = y := by
  rw [declare_of_class hbd hcd, declare_of_class hbe hce] at h
  simp only [List.append_cancel_left_eq] at h
  obtain ⟨hname, hrest⟩ := Text.append_inj_of_head? (c := '(') (hd.not_mem_name (by decide))
    (he.not_mem_name (by decide)) rfl rfl h
  have hok : ∀ (d : Declaration) (fs : List Field), d.Writable → d.body = .record fs →
      isClass fs = true → ∀ f ∈ fs, f.Writable ∧ isPlainIdentifier f.key = true :=
    fun d fs hd hb hc f hf => ⟨(hd.fields fs hb).2 f hf, List.all_eq_true.1 hc f hf⟩
  obtain ⟨hfields, hend⟩ := classPieces.append_inj (hok d fs hd hbd hcd) (hok e gs he hbe hce)
    hx hy (List.append_cancel_left hrest)
  refine ⟨Declaration.shown_eq hname ?_, hend⟩
  rw [hbd, hbe, Body.shown, Body.shown, hfields]

theorem call_append_inj {fs gs : List Field} (hd : d.Writable) (he : e.Writable)
    (hbd : d.body = .record fs) (hcd : isClass fs = false) (hbe : e.body = .record gs)
    (hce : isClass gs = false) (h : declare d ++ x = declare e ++ y) :
    d.shown = e.shown ∧ x = y := by
  rw [declare_of_call hbd hcd, declare_of_call hbe hce] at h
  obtain ⟨hname, hrest⟩ := name_append_inj hd he rfl rfl h
  rw [hname] at hrest
  simp only [List.append_cancel_left_eq] at hrest
  obtain ⟨hfields, hend⟩ := callPieces.append_inj (hd.fields fs hbd).2 (he.fields gs hbe).2
    ⟨x, rfl⟩ ⟨y, rfl⟩ hrest
  simp only [List.append_cancel_left_eq] at hend
  refine ⟨Declaration.shown_eq hname ?_, hend⟩
  rw [hbd, hbe, Body.shown, Body.shown, hfields]

/-- An alias and a class look different. -/
theorem alias_ne_class {t : TypeExpr} {gs : List Field} (hd : d.Writable) (he : e.Writable)
    (hbd : d.body = .alias t) (hbe : e.body = .record gs) (hce : isClass gs = true) :
    declare d ++ x ≠ declare e ++ y := by
  rw [declare_of_alias hbd, declare_of_class hbe hce]
  exact (class_append_ne he.name (hd.not_mem_name (by decide))).symm

/-- An alias and a call look different. -/
theorem alias_ne_call {t : TypeExpr} {gs : List Field} (hd : d.Writable) (he : e.Writable)
    (hx : EndsDeclaration x) (hbd : d.body = .alias t) (hbe : e.body = .record gs)
    (hce : isClass gs = false) : declare d ++ x ≠ declare e ++ y := by
  rw [declare_of_alias hbd, declare_of_call hbe hce]
  intro h
  obtain ⟨-, hrest⟩ := name_append_inj hd he rfl rfl h
  exact spell_append_ne (hd.type t hbd) hx.head? (List.append_cancel_left hrest)

/-- A class and a call look different. -/
theorem class_ne_call {fs gs : List Field} (hd : d.Writable) (he : e.Writable)
    (hbd : d.body = .record fs) (hcd : isClass fs = true) (hbe : e.body = .record gs)
    (hce : isClass gs = false) : declare d ++ x ≠ declare e ++ y := by
  rw [declare_of_class hbd hcd, declare_of_call hbe hce]
  exact class_append_ne hd.name (he.not_mem_name (by decide))

/-- **A declaration is told from what follows it.** -/
theorem declare_append_inj (hd : d.Writable) (he : e.Writable) (hx : EndsDeclaration x)
    (hy : EndsDeclaration y) (h : declare d ++ x = declare e ++ y) :
    d.shown = e.shown ∧ x = y := by
  rcases body_cases d with ⟨t, hbd⟩ | ⟨fs, hbd, hcd⟩ | ⟨fs, hbd, hcd⟩
  · rcases body_cases e with ⟨u, hbe⟩ | ⟨gs, hbe, hce⟩ | ⟨gs, hbe, hce⟩
    · exact alias_append_inj hd he hx hy hbd hbe h
    · exact absurd h (alias_ne_class hd he hbd hbe hce)
    · exact absurd h (alias_ne_call hd he hx hbd hbe hce)
  · rcases body_cases e with ⟨u, hbe⟩ | ⟨gs, hbe, hce⟩ | ⟨gs, hbe, hce⟩
    · exact absurd h.symm (alias_ne_class he hd hbe hbd hcd)
    · exact class_append_inj hd he hx hy hbd hcd hbe hce h
    · exact absurd h (class_ne_call hd he hbd hcd hbe hce)
  · rcases body_cases e with ⟨u, hbe⟩ | ⟨gs, hbe, hce⟩ | ⟨gs, hbe, hce⟩
    · exact absurd h.symm (alias_ne_call he hd hy hbe hbd hcd)
    · exact absurd h.symm (class_ne_call he hd hbe hce hbd hcd)
    · exact call_append_inj hd he hbd hcd hbe hce h

/-- The declarations of a module can be cut off. -/
theorem pieces : Pieces (fun d => ("\n\n\n" : Text) ++ declare d) Declaration.shown
    Declaration.Writable EndsDeclaration (fun x => x = "\n") where
  cut d e x y hd he hx hy h := by
    rw [List.append_assoc, List.append_assoc] at h
    exact declare_append_inj hd he hx hy (List.append_cancel_left h)
  next d x := .inr ⟨declare d ++ x, List.append_assoc _ _ _⟩
  next_of_end _ h := .inl h
  not_end d x := nofun

/-- What is imported stands on one line. -/
theorem preamble_append_inj {ds es : List Declaration}
    (h : imports ds ++ (("\n\n\n" : Text) ++ x) = imports es ++ (("\n\n\n" : Text) ++ y)) :
    x = y := by
  have hline : ∀ ds, ('\n' : CodePoint) ∉ imports ds := by
    intro ds
    rw [imports]
    split <;> decide
  exact List.append_cancel_left (Text.append_inj_of_head? (hline ds) (hline es) rfl rfl h).2

end TypedDict

end TypeSketch
