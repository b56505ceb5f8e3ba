import TypeSketch.Proofs.Pieces

/-!
# Interfaces read off their text

* `TypeScript.fieldPieces`: the fields of an interface can be cut off.
* `TypeScript.pieces`: **the declarations of a module can be cut off**, and each shows what it was
  written for.
-/

namespace TypeSketch

namespace TypeScript

variable {d e : Declaration} {f g : Field} {x y : Text}

theorem fieldLine_append (f : Field) (x : Text) :
    fieldLine f ++ x = ("  " : Text) ++ (propertyKey f.key ++
      (Text.ofString (if f.optional then "?: " else ": ") ++ (spell f.type ++ (";" ++ x)))) := by
  simp only [fieldLine, List.append_assoc]

theorem fieldLine_append_inj (hf : f.Writable) (hg : g.Writable)
    (h : fieldLine f ++ x = fieldLine g ++ y) : f.shown = g.shown ∧ x = y := by
  have hfollows : ∀ (optional : Bool) (z : Text),
      FollowsKey (Text.ofString (if optional then "?: " else ": ") ++ z) := by
    intro optional z
    cases optional
    · exact .colon _
    · exact .question _
  rw [fieldLine_append, fieldLine_append] at h
  obtain ⟨hkey, hrest⟩ := propertyKey_append_inj hf.key hg.key (hfollows _ _) (hfollows _ _)
    (List.append_cancel_left h)
  have hoptional : f.optional = g.optional := by
    cases ho : f.optional <;> cases ho' : g.optional <;> rw [ho, ho'] at hrest <;>
      first | rfl | cases hrest
  rw [hoptional] at hrest
  obtain ⟨htype, hend⟩ := Text.append_inj_of_head? (legible.not_mem_spell hf.type (by decide))
    (legible.not_mem_spell hg.type (by decide)) (c := ';') rfl rfl (List.append_cancel_left hrest)
  exact ⟨Field.shown_eq hkey (legible.injective hf.type hg.type htype) hoptional,
    List.append_cancel_left hend⟩

/-- The fields of an interface, each on a line, end with a closing brace. -/
theorem fieldPieces : Pieces (fun f => ("\n" : Text) ++ fieldLine f) Field.shown Field.Writable
    (fun _ => True) (fun x => ∃ z, x = ("\n" : Text) ++ (("\x7d" : Text) ++ z)) where
  cut f g x y hf hg _ _ h := by
    rw [List.append_assoc, List.append_assoc] at h
    exact fieldLine_append_inj hf hg (List.append_cancel_left h)
  next _ _ := trivial
  next_of_end _ _ := trivial
  not_end f x := by
    rintro ⟨z, h⟩
    cases h

theorem declare_of_alias {t : TypeExpr} (h : d.body = .alias t) (x : Text) :
    declare d ++ x = ("type " : Text) ++ (d.name ++ (" = " ++ (spell t ++ (";" ++ x)))) := by
  simp only [declare, h, List.append_assoc]

theorem declare_of_record {fs : List Field} (h : d.body = .record fs) (x : Text) :
    declare d ++ x = ("interface " : Text) ++ (d.name ++ (" \x7b" ++
      (fs.flatMap (fun f => ("\n" : Text) ++ fieldLine f) ++ ("\n" ++ ("\x7d" ++ x))))) := by
  simp only [declare, h, Text.join_lines, List.append_assoc]

theorem declare_append_inj (hd : d.Writable) (he : e.Writable)
    (h : declare d ++ x = declare e ++ y) : d.shown = e.shown ∧ x = y := by
  have hname := fun z w : Text => Text.append_inj_of_head? (c := ' ') (x := z) (y := w)
    (hd.not_mem_name (by decide)) (he.not_mem_name (by decide))
  cases hbd : d.body with
  | «alias» t =>
    rw [declare_of_alias hbd] at h
    cases hbe : e.body with
    | «alias» u =>
      rw [declare_of_alias hbe] at h
      obtain ⟨hname, hrest⟩ := hname _ _ rfl rfl (List.append_cancel_left h)
      have ht := hd.type t hbd
      have hu := he.type u hbe
      obtain ⟨htype, hend⟩ := Text.append_inj_of_head? (c := ';')
        (legible.not_mem_spell ht (by decide)) (legible.not_mem_spell hu (by decide)) rfl rfl
        (List.append_cancel_left hrest)
      refine ⟨Declaration.shown_eq hname ?_, List.append_cancel_left hend⟩
      rw [hbd, hbe, legible.injective ht hu htype]
    | record gs =>
      rw [declare_of_record hbe] at h
      cases h
  | record fs =>
    rw [declare_of_record hbd] at h
    cases hbe : e.body with
    | «alias» u =>
      rw [declare_of_alias hbe] at h
      cases h
    | record gs =>
      rw [declare_of_record hbe] at h
      obtain ⟨hname, hrest⟩ := hname _ _ rfl rfl (List.append_cancel_left h)
      obtain ⟨hfields, hend⟩ := fieldPieces.append_inj (hd.fields fs hbd).2 (he.fields gs hbe).2
        ⟨_, rfl⟩ ⟨_, rfl⟩ (List.append_cancel_left hrest)
      refine ⟨Declaration.shown_eq hname ?_, List.append_cancel_left (List.append_cancel_left hend)⟩
      rw [hbd, hbe, Body.shown, Body.shown, hfields]

/-- The declarations of a module can be cut off. -/
theorem pieces : Pieces (fun d => ("\n\n" : Text) ++ declare d) Declaration.shown
    Declaration.Writable (fun _ => True) (fun x => x = "\n") where
  cut d e x y hd he _ _ h := by
    rw [List.append_assoc, List.append_assoc] at h
    exact declare_append_inj hd he (List.append_cancel_left h)
  next _ _ := trivial
  next_of_end _ _ := trivial
  not_end d x := nofun

end TypeScript

end TypeSketch
