import TypeSketch.Proofs.PropertyLines

/-!
# Typedefs as comments

A typedef is a comment of its own, so nothing that stands in it may end it.

* `IsComment`: a text that is a comment, up to its end and no further.
* `Text.Closes`: a text that ends the comment it stands in.
* `Json.closes_quote`: **a string literal ends a comment exactly when what is quoted does.**
* `Jsdoc.closes_inner`: only a key can end a typedef.
* `comments_declarations`: **every typedef is a comment exactly when no key ends one.**
-/

namespace TypeSketch

/-- **A comment**: a text with the signs of a comment around it, and those of its end nowhere else.
-/
structure IsComment (t : Text) : Prop where
  opened : ("/**" : Text) <+: t
  closed : ("*/" : Text) <:+ t
  once : ∀ front back, t = front ++ ("*/" : Text) ++ back → back = []

/-! ## Ends of comments -/

namespace Text

variable {t u : Text}

/-- A text that ends the comment it stands in. -/
def Closes (t : Text) : Prop := ("*/" : Text) <:+: t

instance (t : Text) : Decidable t.Closes := inferInstanceAs (Decidable (_ <:+: _))

theorem not_closes_of_not_mem (h : ('/' : CodePoint) ∉ t) : ¬ t.Closes := fun hc =>
  h (hc.subset (by decide))

/-- The signs of an end are in one of two texts, or they meet where these do. -/
theorem closes_append : (t ++ u).Closes ↔ t.Closes ∨ u.Closes ∨
    (t.getLast? = some ('*' : CodePoint) ∧ u.head? = some ('/' : CodePoint)) := by
  rw [Closes, List.infix_append_iff]
  constructor
  · rintro (ht | hu | ⟨front, back, hsigns, hfront, hback⟩)
    · exact .inl ht
    · exact .inr (.inl hu)
    -- the two signs are shared out
    · rcases front with _ | ⟨star, _ | ⟨slash, rest⟩⟩
      · rw [List.nil_append] at hsigns
        rw [← hsigns] at hback
        exact .inr (.inl hback.isInfix)
      · obtain ⟨rfl, rfl⟩ := List.cons.inj hsigns
        obtain ⟨before, rfl⟩ := hfront
        obtain ⟨after, rfl⟩ := hback
        exact .inr (.inr ⟨List.getLast?_concat, rfl⟩)
      · obtain ⟨-, hrest⟩ := List.cons.inj (List.cons.inj hsigns).2
        obtain ⟨rfl, rfl⟩ := List.append_eq_nil_iff.1 hrest.symm
        rw [List.append_nil] at hsigns
        rw [← hsigns] at hfront
        exact .inl hfront.isInfix
  · rintro (ht | hu | ⟨hlast, hhead⟩)
    · exact .inl ht
    · exact .inr (.inl hu)
    · obtain ⟨before, rfl⟩ := List.getLast?_eq_some_iff.1 hlast
      obtain ⟨after, rfl⟩ := List.head?_eq_some_iff.1 hhead
      exact .inr (.inr ⟨[('*' : CodePoint)], [('/' : CodePoint)], rfl, List.suffix_append _ _,
        List.prefix_append [('/' : CodePoint)] after⟩)

/-- No end comes about in front of a text that does not begin with a slash. -/
theorem closes_append_of_head? (h : u.head? ≠ some ('/' : CodePoint)) :
    (t ++ u).Closes ↔ t.Closes ∨ u.Closes := by
  rw [closes_append]
  refine or_congr_right (or_iff_left ?_)
  exact fun hmeet => h hmeet.2

/-- Nor does one behind a text that does not end in a star. -/
theorem closes_append_of_getLast? (h : t.getLast? ≠ some ('*' : CodePoint)) :
    (t ++ u).Closes ↔ t.Closes ∨ u.Closes := by
  rw [closes_append]
  refine or_congr_right (or_iff_left ?_)
  exact fun hmeet => h hmeet.1

/-- A text without a slash does not make one in front of it end a comment. -/
theorem closes_append_of_not_mem (h : ('/' : CodePoint) ∉ u) : (t ++ u).Closes ↔ t.Closes := by
  rw [closes_append_of_head? fun hhead => h (List.mem_of_head? hhead)]
  exact or_iff_left (not_closes_of_not_mem h)

end Text

/-- **A text with the signs of a comment around it is a comment** exactly when nothing in it ends
it. -/
theorem isComment_iff {inner : Text} (h : ("/**" : Text) <+: inner) :
    IsComment (inner ++ ("*/" : Text)) ↔ ¬ inner.Closes := by
  constructor
  · rintro hcomment ⟨front, back, rfl⟩
    have hback := hcomment.once front (back ++ ("*/" : Text)) (by simp only [List.append_assoc])
    exact absurd (List.append_eq_nil_iff.1 hback).2 (by decide)
  · intro hinner
    refine ⟨h.trans (List.prefix_append _ _), List.suffix_append _ _, fun front back ht => ?_⟩
    rcases List.eq_nil_or_concat' back with rfl | ⟨back, slash, rfl⟩
    · rfl
    -- an end further in front is there without the last slash, which it does not need
    have hlast : inner ++ ("*" : Text) ++ [('/' : CodePoint)] =
        front ++ ("*/" : Text) ++ back ++ [slash] := by
      rw [List.append_assoc, List.append_assoc _ back]
      exact ht
    have hstar : Text.Closes (inner ++ ("*" : Text)) :=
      ⟨front, back, (List.append_inj' hlast rfl).1.symm⟩
    exact absurd ((Text.closes_append_of_not_mem (by decide)).1 hstar) hinner

/-! ## String literals -/

namespace Json

variable {c e : CodePoint} {t x : Text}

/-- A star or a slash in what is written for a code point is the code point. -/
theorem eq_of_mem_escapeAscii (he : e ∈ ("*/" : Text)) (h : e ∈ escapeAscii c) : c = e := by
  have hunit : ∀ n, ∀ d ∈ unicodeUnit n, d ∉ ("*/" : Text) := fun n =>
    List.forall_mem_append.2 ⟨by decide, Text.forall_mem_hex (by decide) 4 n⟩
  rcases escapeAscii_cases c with ⟨letter, hc, hletter, -⟩ | ⟨hc, -⟩ | ⟨hc, -⟩ | ⟨n, -, -, hc⟩ <;>
    rw [hc] at h
  · rcases List.mem_cons.1 h with rfl | h
    · exact absurd he (by decide)
    · obtain rfl := List.mem_singleton.1 h
      -- of the two only the slash can be read behind a backslash, as itself
      rcases List.mem_cons.1 he with rfl | he
      · cases hletter
      · obtain rfl := List.mem_singleton.1 he
        exact (Option.some.inj hletter).symm
  · exact (List.mem_singleton.1 h).symm
  · exact absurd he (hunit _ e h)
  · exact absurd he ((List.mem_append.1 h).elim (hunit _ e) (hunit _ e))

theorem escapeAscii_ne_nil (c : CodePoint) : escapeAscii c ≠ [] := by
  rcases escapeAscii_cases c with ⟨letter, h, -⟩ | ⟨h, -⟩ | ⟨h, -⟩ | ⟨n, -, -, h⟩ <;> rw [h] <;>
    nofun

theorem not_closes_escapeAscii (c : CodePoint) : ¬ (escapeAscii c).Closes := by
  intro h
  have hstar := eq_of_mem_escapeAscii (e := '*') (by decide) (h.subset (by decide))
  have hslash := eq_of_mem_escapeAscii (e := '/') (by decide) (h.subset (by decide))
  exact absurd (hstar.symm.trans hslash) (by decide)

theorem getLast?_escapeAscii :
    (escapeAscii c).getLast? = some ('*' : CodePoint) ↔ c = '*' := by
  constructor
  · exact fun h => eq_of_mem_escapeAscii (by decide) (List.mem_of_getLast? h)
  · rintro rfl
    decide

theorem head?_escaped : (t.flatMap escapeAscii).head? = some ('/' : CodePoint) ↔
    t.head? = some ('/' : CodePoint) := by
  cases t with
  | nil => rfl
  | cons c t =>
    rw [List.flatMap_cons, List.head?_append_of_ne_nil _ (escapeAscii_ne_nil c), List.head?_cons,
      Option.some_inj]
    constructor
    · exact fun h => eq_of_mem_escapeAscii (by decide) (List.mem_of_head? h)
    · rintro rfl
      decide

/-- **What is written for a text ends a comment exactly when the text does.** -/
theorem closes_escaped : Text.Closes (t.flatMap escapeAscii) ↔ t.Closes := by
  induction t with
  | nil => rfl
  | cons c t ih =>
    have hsingle : ¬ Text.Closes [c] := fun h => absurd h.length_le (Nat.not_succ_le_self 1)
    have hcons : (c :: t : Text) = [c] ++ t := rfl
    rw [List.flatMap_cons, Text.closes_append, ih, getLast?_escapeAscii, head?_escaped, hcons,
      Text.closes_append, List.getLast?_singleton, Option.some_inj]
    simp only [not_closes_escapeAscii, hsingle, false_or]

/-- **A string literal ends a comment exactly when what is quoted does.** -/
theorem closes_quote : (quote t).Closes ↔ t.Closes := by
  have hopen : ¬ Text.Closes "\"" := by decide
  rw [quote, quoteBy, Text.closes_append_of_not_mem (by decide),
    Text.closes_append_of_getLast? (by decide), closes_escaped]
  exact or_iff_right hopen

end Json

/-! ## Typedefs -/

namespace Jsdoc

open TypeScript (propertyKey)

variable {d : Declaration} {f : Field} {fields : List Field} {key : Text}

/-- What is written for a key ends a comment exactly when the key does. -/
theorem closes_propertyKey : (propertyKey key).Closes ↔ key.Closes := by
  rw [propertyKey]
  split
  · exact Iff.rfl
  · exact Json.closes_quote

/-- The line of a field ends a comment exactly when its key does. -/
theorem closes_fieldLine (h : ('/' : CodePoint) ∉ spell f.type) :
    (fieldLine f).Closes ↔ f.key.Closes := by
  have hfront : ¬ Text.Closes ((" * @property \x7b" : Text) ++ spell f.type ++ "\x7d ") := by
    refine Text.not_closes_of_not_mem ?_
    simp only [List.mem_append, not_or]
    exact ⟨⟨by decide, h⟩, by decide⟩
  have hname : (fieldName f).Closes ↔ f.key.Closes := by
    refine Iff.trans ?_ closes_propertyKey
    cases ho : f.optional with
    | false => rw [fieldName_of_not_optional ho]
    | true =>
      have hopen : ¬ Text.Closes "[" := by decide
      have hbrackets := fieldName_of_optional ho []
      rw [List.append_nil, List.append_nil] at hbrackets
      rw [hbrackets, Text.closes_append_of_getLast? (by decide),
        Text.closes_append_of_not_mem (by decide)]
      exact or_iff_right hopen
  have hlast : ((" * @property \x7b" : Text) ++ spell f.type ++ "\x7d ").getLast? ≠
      some ('*' : CodePoint) := by
    rw [List.getLast?_append_of_ne_nil _ (by decide)]
    decide
  rw [fieldLine, Text.closes_append_of_getLast? hlast, hname]
  exact or_iff_right hfront

theorem head?_fieldLines (fields : List Field) :
    (fields.flatMap fun f => ("\n" : Text) ++ fieldLine f).head? ≠ some ('/' : CodePoint) := by
  cases fields with
  | nil => nofun
  | cons f fields => rintro ⟨⟩

/-- The lines of some fields end a comment exactly when one of their keys does. -/
theorem closes_fieldLines (h : ∀ f ∈ fields, ('/' : CodePoint) ∉ spell f.type) :
    Text.Closes (fields.flatMap fun f => ("\n" : Text) ++ fieldLine f) ↔
      ∃ f ∈ fields, f.key.Closes := by
  induction fields with
  | nil => decide
  | cons f fields ih =>
    rw [List.forall_mem_cons] at h
    have hline : Text.Closes (("\n" : Text) ++ fieldLine f) ↔ f.key.Closes := by
      have hbreak : ¬ Text.Closes "\n" := by decide
      rw [Text.closes_append_of_getLast? (by decide), closes_fieldLine h.1]
      exact or_iff_right hbreak
    rw [List.flatMap_cons, Text.closes_append_of_head? (head?_fieldLines fields),
      List.exists_mem_cons_iff]
    exact or_congr hline (ih h.2)

/-- A typedef without the signs of its end. -/
def inner (d : Declaration) : Text :=
  ("/**\n * @typedef \x7b" : Text) ++ spell (typedefType d.body) ++ "\x7d " ++ d.name ++
    (d.fields.flatMap fun f => ("\n" : Text) ++ fieldLine f) ++ "\n "

theorem declare_eq_inner (d : Declaration) : declare d = inner d ++ ("*/" : Text) := by
  have hdeclare := declare_append d []
  rw [List.append_nil] at hdeclare
  rw [hdeclare, inner, Declaration.fields]
  cases d.body with
  | «alias» t =>
    simp only [typedefEnd, List.flatMap_nil, List.append_assoc, List.append_nil]
    rfl
  | record fields =>
    simp only [typedefEnd, List.append_assoc, List.append_nil]
    rfl

theorem opened_inner (d : Declaration) : ("/**" : Text) <+: inner d := by
  simp only [inner, List.append_assoc]
  exact List.prefix_append ("/**" : Text) _

/-- **Only a key can end a typedef**, if there is no slash in its names. -/
theorem closes_inner (hd : Shape.Lacks '/' d) :
    (inner d).Closes ↔ ∃ f ∈ d.fields, f.key.Closes := by
  have htype : ('/' : CodePoint) ∉ spell (typedefType d.body) := by
    refine legible.not_mem_of_names (by decide) fun n hn => ?_
    cases hb : d.body with
    | «alias» t =>
      rw [hb] at hn
      refine hd.uses n ?_
      rwa [Declaration.uses, hb]
    | record fields =>
      rw [hb] at hn
      cases hn
  have hfields : ∀ f ∈ d.fields, ('/' : CodePoint) ∉ spell f.type := by
    intro f hf
    exact hd.not_mem_spell legible (by decide) (Declaration.body_of_mem_fields hf) hf
  have hfront : ¬ Text.Closes
      (("/**\n * @typedef \x7b" : Text) ++ spell (typedefType d.body) ++ "\x7d " ++ d.name) := by
    rw [Text.closes_append_of_not_mem hd.name, Text.closes_append_of_not_mem (by decide),
      Text.closes_append_of_not_mem htype]
    decide
  rw [inner, Text.closes_append_of_not_mem (by decide),
    Text.closes_append_of_head? (head?_fieldLines _), closes_fieldLines hfields]
  exact or_iff_right hfront

/-- **A typedef is a comment exactly when no key ends it**, if there is no slash in its names. -/
theorem isComment_declare_iff (hd : Shape.Lacks '/' d) :
    IsComment (declare d) ↔ ∀ f ∈ d.fields, ¬ f.key.Closes := by
  rw [declare_eq_inner, isComment_iff (opened_inner d), closes_inner hd]
  push Not
  exact Iff.rfl

end Jsdoc

/-! ## Written typedefs -/

variable {s : Shape} {useOptional : Bool} {root : Text} {d : Declaration}

/-- Every record is declared. -/
theorem Shape.exists_declaration (useOptional : Bool) (root : Text) {r : Shape}
    (hr : r ∈ s.records) :
    ∃ d ∈ s.declarations useOptional root, d.fields.map (·.key) = Entries.names r.fields := by
  obtain ⟨d, hd, i, hfields⟩ := exists_declared useOptional root hr
  exact ⟨d, hd, hfields ▸ keys_fieldsFrom _⟩

/-- What every declared field has for its key is a key of an object. -/
theorem Shape.exists_record_of_field (hd : d ∈ s.declarations useOptional root) {f : Field}
    (hf : f ∈ d.fields) : ∃ r ∈ s.records, f.key ∈ Entries.names r.fields := by
  obtain ⟨r, hr, hkeys⟩ := exists_keys hd (Declaration.body_of_mem_fields hf)
  exact ⟨r, hr, hkeys ▸ List.mem_map_of_mem hf⟩

/-- **Typedefs are comments, unless a key ends one.** Under a root without a slash every typedef
begins and ends like a comment. It is one exactly when the signs of its end are in none of its keys;
so all typedefs of a shape are comments exactly when these are in no key of an object. -/
theorem comments_declarations (hroot : ('/' : CodePoint) ∉ root) :
    (∀ d ∈ s.declarations useOptional root, ("/**" : Text) <+: Jsdoc.declare d ∧
      ("*/" : Text) <:+ Jsdoc.declare d ∧
      (IsComment (Jsdoc.declare d) ↔ ∀ f ∈ d.fields, ¬ f.key.Closes)) ∧
    ((∀ d ∈ s.declarations useOptional root, IsComment (Jsdoc.declare d)) ↔
      ∀ r ∈ s.records, ∀ key ∈ Entries.names r.fields, ¬ key.Closes) := by
  have hcomment : ∀ d ∈ s.declarations useOptional root,
      (IsComment (Jsdoc.declare d) ↔ ∀ f ∈ d.fields, ¬ f.key.Closes) := fun d hd =>
    Jsdoc.isComment_declare_iff (Shape.lacks_declarations hroot (by decide) (by decide) hd)
  refine ⟨fun d hd => ⟨?_, ?_, hcomment d hd⟩, fun h r hr key hkey => ?_, fun h d hd => ?_⟩
  · rw [Jsdoc.declare_eq_inner]
    exact (Jsdoc.opened_inner d).trans (List.prefix_append _ _)
  · rw [Jsdoc.declare_eq_inner]
    exact List.suffix_append _ _
  · obtain ⟨d, hd, hkeys⟩ := Shape.exists_declaration useOptional root hr
    rw [← hkeys] at hkey
    obtain ⟨f, hf, rfl⟩ := List.mem_map.1 hkey
    exact (hcomment d hd).1 (h d hd) f hf
  · refine (hcomment d hd).2 fun f hf => ?_
    obtain ⟨r, hr, hkey⟩ := Shape.exists_record_of_field hd hf
    exact h r hr f.key hkey

/-- An object with stars and slashes in its keys. -/
def slashSample : Value := .object [("/*", .array [.null]), ("a/b*", .bool true)]

/-- The declaration of its root. -/
def slashRoot : Declaration :=
  ⟨"Root", .record [⟨"/*", .array, .anyList, false⟩, ⟨"a/b*", .boolean, .boolean, false⟩], []⟩

theorem comments_slashSample : IsComment (Jsdoc.declare slashRoot) := by
  have hd : slashRoot ∈ (Shape.of slashSample).declarations true "Root" := by decide +kernel
  have hkeys : ∀ r ∈ (Shape.of slashSample).records, ∀ key ∈ Entries.names r.fields,
      ¬ key.Closes := by
    decide +kernel
  exact (comments_declarations (by decide)).2.2 hkeys slashRoot hd

/-- An object with a key that ends comments. -/
def closingSample : Value := .object [("*/", .number (.int 1))]

/-- The declaration of its root. -/
def closingRoot : Declaration := ⟨"Root", .record [⟨"*/", .number, .number, false⟩], []⟩

/-- Its typedef is no comment: a quote and what follows it stand outside. -/
theorem not_isComment_closing :
    closingRoot ∈ (Shape.of closingSample).declarations true "Root" ∧
    ¬ IsComment (Jsdoc.declare closingRoot) := by
  refine ⟨by decide +kernel, fun h => ?_⟩
  have hsplit : Jsdoc.declare closingRoot =
      ("/**\n * @typedef \x7bObject\x7d Root\n * @property \x7bnumber\x7d \"" : Text) ++
        ("*/" : Text) ++ ("\"\n */" : Text) := by
    decide +kernel
  exact absurd (h.once _ _ hsplit) (by decide)

end TypeSketch
