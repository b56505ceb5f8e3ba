import TypeSketch.Proofs.Pieces

/-!
# Typedefs read off their text

An alias and a record have the same first lines, so a record is only told by its fields.

* `Jsdoc.fieldPieces`: the properties of a typedef can be cut off.
* `Jsdoc.pieces`: **the typedefs can be cut off**, and each shows what it was written for.
-/

namespace TypeSketch

namespace Jsdoc

open TypeScript (FollowsKey propertyKey propertyKey_append_inj head?_propertyKey)

variable {d e : Declaration} {f g : Field} {x y : Text}

theorem fieldName_of_optional (h : f.optional = true) (x : Text) :
    fieldName f ++ x = ("[" : Text) ++ (propertyKey f.key ++ ("]" ++ x)) := by
  simp only [fieldName, if_pos h, List.append_assoc]

theorem fieldName_of_not_optional (h : f.optional = false) :
    fieldName f = propertyKey f.key := by
  rw [fieldName, h]
  exact if_neg Bool.false_ne_true

/-- A key does not begin with the bracket of one that may be missing. -/
theorem propertyKey_append_ne (k x y : Text) : propertyKey k ++ x ≠ ("[" : Text) ++ y := by
  intro h
  obtain ⟨c, hc, hname⟩ := head?_propertyKey k x
  rw [h] at hc
  obtain rfl : '[' = c := Option.some.inj hc
  exact absurd hname (by decide)

theorem fieldName_append_inj (hf : f.Writable) (hg : g.Writable) (hx : FollowsKey x)
    (hy : FollowsKey y) (h : fieldName f ++ x = fieldName g ++ y) :
    f.key = g.key ∧ f.optional = g.optional ∧ x = y := by
  cases hof : f.optional with
  | false =>
    rw [fieldName_of_not_optional hof] at h
    cases hog : g.optional with
    | false =>
      rw [fieldName_of_not_optional hog] at h
      obtain ⟨hkey, hend⟩ := propertyKey_append_inj hf.key hg.key hx hy h
      exact ⟨hkey, rfl, hend⟩
    | true =>
      rw [fieldName_of_optional hog] at h
      exact absurd h (propertyKey_append_ne _ _ _)
  | true =>
    rw [fieldName_of_optional hof] at h
    cases hog : g.optional with
    | false =>
      rw [fieldName_of_not_optional hog] at h
      exact absurd h.symm (propertyKey_append_ne _ _ _)
    | true =>
      rw [fieldName_of_optional hog] at h
      obtain ⟨hkey, hend⟩ := propertyKey_append_inj hf.key hg.key (.bracket _) (.bracket _)
        (List.append_cancel_left h)
      exact ⟨hkey, rfl, (List.cons.inj hend).2⟩

/-- A type in braces, with a blank behind it, is told from what follows it. -/
theorem braced_append_inj {t u : TypeExpr} (ht : t.NamesNested) (hu : u.NamesNested)
    (h : spell t ++ (("\x7d " : Text) ++ x) = spell u ++ (("\x7d " : Text) ++ y)) :
    t = u ∧ x = y := by
  obtain ⟨htype, hend⟩ := Text.append_inj_of_head? (c := '\x7d')
    (legible.not_mem_spell ht (by decide)) (legible.not_mem_spell hu (by decide)) rfl rfl h
  exact ⟨legible.injective ht hu htype, List.append_cancel_left hend⟩

/-- The properties of a typedef, each on a line, end with the comment. -/
theorem fieldPieces : Pieces (fun f => ("\n" : Text) ++ fieldLine f) Field.shown Field.Writable
    FollowsKey (fun x => ∃ z, x = ("\n" : Text) ++ ((" */" : Text) ++ z)) where
  cut f g x y hf hg hx hy h := by
    simp only [fieldLine, List.append_assoc] at h
    obtain ⟨htype, hrest⟩ := braced_append_inj hf.type hg.type
      (List.append_cancel_left (List.append_cancel_left h))
    obtain ⟨hkey, hoptional, hend⟩ := fieldName_append_inj hf hg hx hy hrest
    exact ⟨Field.shown_eq hkey htype hoptional, hend⟩
  next _ _ := .line _
  next_of_end x := by
    rintro ⟨z, rfl⟩
    exact .line _
  not_end f x := by
    rintro ⟨z, h⟩
    cases h

/-- The type that a typedef gives in braces. -/
def typedefType : Body → TypeExpr
  | .alias t => t
  | .record _ => .anyObject

/-- What stands behind the name of a typedef. -/
def typedefEnd : Body → Text
  | .alias _ => "\n */"
  | .record fields => fields.flatMap (fun f => ("\n" : Text) ++ fieldLine f) ++ ("\n" ++ " */")

theorem declare_append (d : Declaration) (x : Text) :
    declare d ++ x = ("/**\n * @typedef \x7b" : Text) ++ (spell (typedefType d.body) ++
      ("\x7d " ++ (d.name ++ (typedefEnd d.body ++ x)))) := by
  obtain ⟨name, body, issued⟩ := d
  cases body with
  | «alias» t => simp only [declare, typedefType, typedefEnd, List.append_assoc]
  | record fields =>
    have hjoin : declare ⟨name, .record fields, issued⟩ = ("/**" : Text) ++ "\n" ++
        Text.join "\n" (((" * @typedef \x7bObject\x7d " : Text) ++ name) ::
          fields.map fieldLine ++ [(" */" : Text)]) := rfl
    rw [hjoin, Text.join_lines]
    simp only [typedefType, typedefEnd, List.append_assoc]
    rfl

/-- A typedef goes on in a new line behind its name. -/
theorem head?_typedefEnd {b : Body} (hb : ∀ fs, b = .record fs → fs ≠ []) (x : Text) :
    (typedefEnd b ++ x).head? = some '\n' := by
  cases b with
  | «alias» t => rfl
  | record fs =>
    cases fs with
    | nil => exact absurd rfl (hb [] rfl)
    | cons => rfl

/-- A record has a property where the comment of an alias ends. -/
theorem typedefEnd_alias_ne {t : TypeExpr} {fs : List Field} (hne : fs ≠ []) (x y : Text) :
    typedefEnd (.alias t) ++ x ≠ typedefEnd (.record fs) ++ y := by
  cases fs with
  | nil => exact absurd rfl hne
  | cons => nofun

/-- What stands behind the name tells a record by its fields. -/
theorem typedefEnd_append_inj {b c : Body}
    (hb : ∀ fs, b = .record fs → fs ≠ [] ∧ ∀ f ∈ fs, f.Writable)
    (hc : ∀ fs, c = .record fs → fs ≠ [] ∧ ∀ f ∈ fs, f.Writable)
    (ht : typedefType b = typedefType c) (h : typedefEnd b ++ x = typedefEnd c ++ y) :
    b.shown = c.shown ∧ x = y := by
  cases b with
  | «alias» t =>
    cases c with
    | «alias» u => exact ⟨congrArg Sum.inl ht, List.append_cancel_left h⟩
    | record gs => exact absurd h (typedefEnd_alias_ne (hc gs rfl).1 x y)
  | record fs =>
    cases c with
    | «alias» u => exact absurd h.symm (typedefEnd_alias_ne (hb fs rfl).1 y x)
    | record gs =>
      simp only [typedefEnd, List.append_assoc] at h
      obtain ⟨hfields, hend⟩ := fieldPieces.append_inj (hb fs rfl).2 (hc gs rfl).2
        ⟨x, rfl⟩ ⟨y, rfl⟩ h
      exact ⟨congrArg Sum.inr hfields, List.append_cancel_left (List.append_cancel_left hend)⟩

/-- **A typedef is told from what follows it.** -/
theorem declare_append_inj (hd : d.Writable) (he : e.Writable)
    (h : declare d ++ x = declare e ++ y) : d.shown = e.shown ∧ x = y := by
  have htype : ∀ d : Declaration, d.Writable → (typedefType d.body).NamesNested := by
    intro d hd
    cases hb : d.body with
    | «alias» t => exact hd.type t hb
    | record => exact fun n hn => nomatch hn
  have hline : ∀ (d : Declaration) (x : Text), d.Writable →
      (typedefEnd d.body ++ x).head? = some '\n' :=
    fun d x hd => head?_typedefEnd (fun fs hb => (hd.fields fs hb).1) x
  rw [declare_append, declare_append] at h
  obtain ⟨hbraced, hrest⟩ :=
    braced_append_inj (htype d hd) (htype e he) (List.append_cancel_left h)
  obtain ⟨hname, hend⟩ := Text.append_inj_of_head? (hd.not_mem_name (by decide))
    (he.not_mem_name (by decide)) (hline d x hd) (hline e y he) hrest
  obtain ⟨hbody, hxy⟩ := typedefEnd_append_inj hd.fields he.fields hbraced hend
  exact ⟨Declaration.shown_eq hname hbody, hxy⟩

/-- The typedefs can be cut off. -/
theorem pieces : Pieces (fun d => ("\n\n" : Text) ++ declare d) Declaration.shown
    Declaration.Writable (fun _ => True) (fun x => x = "\n") where
  cut d e x y hd he _ _ h := by
    rw [List.append_assoc, List.append_assoc] at h
    exact declare_append_inj hd he (List.append_cancel_left h)
  next _ _ := trivial
  next_of_end _ _ := trivial
  not_end d x := nofun

end Jsdoc

end TypeSketch
