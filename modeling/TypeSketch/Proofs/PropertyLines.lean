import Mathlib.Data.List.Forall2
import TypeSketch.Proofs.ClassText
import TypeSketch.Proofs.Issued
import TypeSketch.Proofs.Pieces.Jsdoc
import TypeSketch.Proofs.Pieces.TypeScript
import TypeSketch.Proofs.Portable

/-!
# Lines of properties

Interfaces and typedefs have a line for each property, with its key as a plain name or as a string
literal.

* `Text.length_splitOn`: how many lines a text has.
* `TypeScript.readKey?`: **the key that a text begins with**, and what follows it.
* `TypeScript.lineKey?`, `Jsdoc.lineKey?`: the key of a line.
* `TypeScript.IsBroken`: the keys whose line is broken, plain names with a line feed behind them.
* `LinesOf`: lines between some others, one for each property, from which its key is read.
* `linesOf_iff`: **a text has such lines exactly when no key was broken.**
* `property_lines`: **the lines of interfaces and typedefs have the keys of the object**, unless one
  of these is a plain name with a line feed behind it.
-/

namespace TypeSketch

/-! ## Counting lines -/

namespace Text

variable {c : CodePoint}

/-- A text is cut into one piece more than the code point occurs in it. -/
theorem length_splitOn (c : CodePoint) (t : Text) : (t.splitOn c).length = t.count c + 1 := by
  induction t with
  | nil => rfl
  | cons d t ih =>
    rw [splitOn]
    split
    · next h => rw [List.length_cons, ih, h, List.count_cons_self]
    · next h =>
      obtain ⟨piece, pieces, hpieces⟩ := List.exists_cons_of_ne_nil (splitOn_ne_nil c t)
      rw [hpieces] at ih ⊢
      rw [List.count_cons_of_ne h]
      exact ih

/-- A joined text has a separator between any two parts, and those that are in the parts. -/
theorem count_join (c : CodePoint) (t : Text) (ts : List Text) :
    (join [c] (t :: ts)).count c = ts.length + (t :: ts).flatten.count c := by
  induction ts generalizing t with
  | nil => simp [join]
  | cons u ts ih =>
    rw [join, List.count_append, List.count_append, ih, List.count_singleton_self]
    · rw [@List.flatten_cons _ t, List.count_append, List.length_cons]
      omega
    · exact List.cons_ne_nil u ts

/-- A joined text that is cut into as many pieces as it has parts has no separator in a part. -/
theorem not_mem_of_length_splitOn {parts : List Text} (hne : parts ≠ [])
    (h : ((join [c] parts).splitOn c).length = parts.length) : ∀ t ∈ parts, c ∉ t := by
  obtain ⟨t, ts, rfl⟩ := List.exists_cons_of_ne_nil hne
  rw [length_splitOn, count_join, List.length_cons] at h
  have hcount : (t :: ts).flatten.count c = 0 := by omega
  intro u hu hmem
  exact List.count_eq_zero.1 hcount (List.mem_flatten.2 ⟨u, hu, hmem⟩)

end Text

/-! ## Reading keys -/

namespace TypeScript

variable {key x : Text}

/-- The key that a text begins with, and what follows it: a string literal, or a plain name. -/
def readKey? (t : Text) : Option (Text × Text) :=
  if t.startsWith "\"" then (Json.lenientString t [] (t.drop 1)).toOption
  else
    let (name, after) := t.span continuesName
    if isPlainName name then some (name, after) else none

/-- The key of a line in an interface. -/
def lineKey? (line : Text) : Option Text := do
  let (key, t) ← readKey? (← Text.behind? "  " line)
  if t.startsWith ": " || t.startsWith "?: " then some key else none

/-- A key that is a plain name with a line feed behind it. -/
def IsBroken (key : Text) : Prop :=
  ∃ name, isPlainName name = true ∧ key = name ++ [('\n' : CodePoint)]

theorem isBroken_iff :
    IsBroken key ↔ key.getLast? = some ('\n' : CodePoint) ∧ isPlainName key.dropLast = true := by
  constructor
  · rintro ⟨name, hname, rfl⟩
    exact ⟨List.getLast?_concat, by rwa [List.dropLast_concat]⟩
  · rintro ⟨hlast, hname⟩
    exact ⟨key.dropLast, hname, (List.dropLast_append_getLast? _ hlast).symm⟩

instance (key : Text) : Decidable (IsBroken key) := decidable_of_iff' _ isBroken_iff

theorem readKey?_of_isPlainName (h : isPlainName key = true)
    (hx : ∀ c ∈ x.head?, continuesName c = false) : readKey? (key ++ x) = some (key, x) := by
  have hquote : (key ++ x).startsWith "\"" = false := by
    cases key with
    | nil => cases h
    | cons c key =>
      rw [isPlainName, Bool.and_eq_true] at h
      refine Bool.eq_false_iff.2 fun hstart => ?_
      obtain ⟨rest, hrest⟩ := List.isPrefixOf_iff_prefix.1 hstart
      obtain rfl : '"' = c := (List.cons.inj hrest).1
      exact absurd h.1 (by decide)
  rw [readKey?, hquote, Text.span_append (continuesName_of_isPlainName h) hx]
  simp [h]

theorem readKey?_quote (h : key.IsWhole) (x : Text) :
    readKey? (Json.quote key ++ x) = some (key, x) := by
  have hquote : ∀ t : Text, Text.startsWith ('"' :: t) "\"" = true := fun _ => rfl
  rw [Json.quote_append, readKey?, hquote, if_pos rfl, List.drop_one, List.tail_cons,
    Json.lenientString_escaped h]
  rfl

/-- **A written key is read**, unless it is broken. -/
theorem readKey?_propertyKey (hk : key.IsWhole) (hb : ¬ IsBroken key)
    (hx : ∀ c ∈ x.head?, continuesName c = false) :
    readKey? (propertyKey key ++ x) = some (key, x) := by
  rw [propertyKey]
  split
  · next hbare =>
    obtain ⟨name, hname, rfl | hbroken⟩ := isBareKey_iff.1 hbare
    · exact readKey?_of_isPlainName hname hx
    · exact absurd ⟨name, hname, hbroken⟩ hb
  · exact readKey?_quote hk x

/-- Only a broken key has a line feed in what is written for it. -/
theorem newline_mem_propertyKey : ('\n' : CodePoint) ∈ propertyKey key ↔ IsBroken key := by
  constructor
  · intro h
    rw [propertyKey] at h
    split at h
    · next hbare =>
      obtain ⟨name, hname, rfl | hbroken⟩ := isBareKey_iff.1 hbare
      · exact absurd h (not_mem_of_isPlainName hname (by decide))
      · exact ⟨name, hname, hbroken⟩
    · exact absurd (Json.isPrintable_of_mem_quote h) (by decide)
  · rintro ⟨name, hname, rfl⟩
    rw [propertyKey, if_pos (isBareKey_iff.2 ⟨name, hname, .inr rfl⟩)]
    exact List.mem_append_right _ List.mem_cons_self

end TypeScript

open TypeScript (readKey? readKey?_propertyKey IsBroken propertyKey newline_mem_propertyKey)

namespace Jsdoc

/-- The key of a text that consists of it and an end. -/
def keyBefore? (tail t : Text) : Option Text := do
  let (key, after) ← readKey? t
  if after = tail then some key else none

/-- The key of a line in a typedef: it stands behind the type in braces, and in brackets if the
property may be missing. -/
def lineKey? (line : Text) : Option Text := do
  let t := (Text.cutAt '\x7d' (← Text.behind? " * @property \x7b" line)).2
  let t ← Text.behind? "\x7d " t
  match Text.behind? "[" t with
  | some t => keyBefore? "]" t
  | none => keyBefore? [] t

theorem keyBefore?_propertyKey {key tail : Text} (hk : key.IsWhole) (hb : ¬ IsBroken key)
    (ht : ∀ c ∈ tail.head?, TypeScript.continuesName c = false) :
    keyBefore? tail (propertyKey key ++ tail) = some key := by
  rw [keyBefore?, readKey?_propertyKey hk hb ht]
  exact if_pos rfl

/-- A key does not begin with a bracket. -/
theorem behind?_propertyKey (key : Text) : Text.behind? "[" (propertyKey key) = none := by
  refine Option.eq_none_iff_forall_not_mem.2 fun t ht => ?_
  obtain ⟨front, hkey, hfront⟩ := List.dropPrefix?_eq_some_iff.1 ht
  rw [beq_iff_eq] at hfront
  refine propertyKey_append_ne key [] t ?_
  rw [List.append_nil, hkey, hfront]

end Jsdoc

/-! ## Lines of one property each -/

variable {fields : List Field} {line : Field → Text} {key? : Text → Option Text}
  {first : List Text} {last : Text}

/-- **Lines of a text between some others, one for each property**, from which its key is read. -/
def LinesOf (key? : Text → Option Text) (first : List Text) (last : Text) (fields : List Field)
    (t : Text) : Prop :=
  ∃ lines, t.splitOn '\n' = first ++ lines ++ [last] ∧
    List.Forall₂ (fun line f => key? line = some f.key) lines fields

/-- **A text has a line for each property exactly when no key was broken**, given that a key is read
from its line unless it was, and that the lines around them are whole. -/
theorem linesOf_iff (hends : ∀ t ∈ first ++ [last], ('\n' : CodePoint) ∉ t)
    (hbroken : ∀ f ∈ fields, ('\n' : CodePoint) ∈ line f ↔ IsBroken f.key)
    (hread : ∀ f ∈ fields, ¬ IsBroken f.key → key? (line f) = some f.key) :
    LinesOf key? first last fields (Text.join "\n" (first ++ fields.map line ++ [last])) ↔
      ∀ f ∈ fields, ¬ IsBroken f.key := by
  have hne : first ++ fields.map line ++ [last] ≠ [] :=
    List.append_ne_nil_of_right_ne_nil _ (List.cons_ne_nil _ _)
  constructor
  · rintro ⟨lines, hlines, hkeys⟩ f hf h
    -- there would be more lines than that
    have hlength : (Text.splitOn '\n'
        (Text.join "\n" (first ++ fields.map line ++ [last]))).length =
          (first ++ fields.map line ++ [last]).length := by
      rw [hlines]
      simp [hkeys.length_eq]
    refine Text.not_mem_of_length_splitOn hne hlength (line f) ?_ ((hbroken f hf).2 h)
    exact List.mem_append_left _ (List.mem_append_right _ (List.mem_map_of_mem hf))
  · intro h
    refine ⟨fields.map line, Text.splitOn_join hne ?_, ?_⟩
    · rw [List.forall_mem_append] at hends
      refine List.forall_mem_append.2 ⟨List.forall_mem_append.2 ⟨hends.1, ?_⟩, hends.2⟩
      exact List.forall_mem_map.2 fun f hf => fun hmem => h f hf ((hbroken f hf).1 hmem)
    · rw [List.forall₂_map_left_iff, List.forall₂_same]
      exact fun f hf => hread f hf (h f hf)

/-! ## Interfaces -/

variable {d : Declaration} {f : Field} {c : CodePoint}

/-- What is in no name and no sign of types is not in the type of a field. -/
theorem Shape.Lacks.not_mem_spell {spell : TypeExpr → Text} {layerOf : Text → TypeExpr.Layer}
    {signs : Text} (h : Shape.Lacks c d) (hl : Legible spell layerOf signs)
    (hc : isNameOr signs c = false) (hb : d.body = .record fields) (hf : f ∈ fields) :
    c ∉ spell f.type := by
  refine hl.not_mem_of_names hc fun n hn => h.uses n ?_
  rw [Declaration.uses, hb]
  exact List.mem_flatMap.2 ⟨f, hf, hn⟩

namespace TypeScript

/-- What stands behind a key. -/
theorem lineKey?_append (hk : f.key.IsWhole) (hb : ¬ IsBroken f.key) {colon x : Text}
    (hcolon : colon = ": " ∨ colon = "?: ") :
    lineKey? (("  " : Text) ++ (propertyKey f.key ++ (colon ++ x))) = some f.key := by
  have hstop : ∀ c ∈ (colon ++ x).head?, continuesName c = false := by
    rcases hcolon with rfl | rfl <;> rintro c ⟨⟩ <;> decide
  have hstart :
      (Text.startsWith (colon ++ x) ": " || Text.startsWith (colon ++ x) "?: ") = true := by
    rcases hcolon with rfl | rfl <;> simp [Text.startsWith_append]
  simp only [lineKey?, Text.behind?_append, readKey?_propertyKey hk hb hstop, Option.bind_eq_bind,
    Option.bind_some, hstart, if_true]

/-- **The key of a field is read from its line.** -/
theorem lineKey?_fieldLine (hk : f.key.IsWhole) (hb : ¬ IsBroken f.key) :
    lineKey? (fieldLine f) = some f.key := by
  have hline := fieldLine_append f []
  rw [List.append_nil] at hline
  rw [hline]
  refine lineKey?_append hk hb ?_
  cases f.optional with
  | false => exact .inl rfl
  | true => exact .inr rfl

theorem newline_mem_fieldLine (h : ('\n' : CodePoint) ∉ spell f.type) :
    ('\n' : CodePoint) ∈ fieldLine f ↔ IsBroken f.key := by
  have hblanks : ('\n' : CodePoint) ∉ Text.ofString "  " := by decide
  have hcolon : ('\n' : CodePoint) ∉ Text.ofString (if f.optional then "?: " else ": ") := by
    cases f.optional <;> decide
  have hend : ('\n' : CodePoint) ∉ Text.ofString ";" := by decide
  rw [← newline_mem_propertyKey, fieldLine]
  simp only [List.mem_append, hblanks, hcolon, h, hend, false_or, or_false]

/-- **An interface has a line for each property** exactly when no key was broken. -/
theorem linesOf_declare (hd : Shape.Lacks '\n' d) (hb : d.body = .record fields)
    (hk : ∀ f ∈ fields, f.key.IsWhole) :
    LinesOf lineKey? [("interface " : Text) ++ d.name ++ " \x7b"] "\x7d" fields (declare d) ↔
      ∀ f ∈ fields, ¬ IsBroken f.key := by
  have hends : ∀ t ∈ [("interface " : Text) ++ d.name ++ " \x7b"] ++ [("\x7d" : Text)],
      ('\n' : CodePoint) ∉ t := by
    have hfirst : ('\n' : CodePoint) ∉ ("interface " : Text) ++ d.name ++ " \x7b" := by
      simp only [List.mem_append, not_or]
      exact ⟨⟨by decide, hd.name⟩, by decide⟩
    exact List.forall_mem_cons.2 ⟨hfirst, List.forall_mem_singleton.2 (by decide)⟩
  have hdeclare : declare d = Text.join "\n"
      ([("interface " : Text) ++ d.name ++ " \x7b"] ++ fields.map fieldLine ++
        [("\x7d" : Text)]) := by
    rw [declare, hb]
    rfl
  rw [hdeclare]
  exact linesOf_iff hends
    (fun f hf => newline_mem_fieldLine (hd.not_mem_spell legible (by decide) hb hf))
    fun f hf => lineKey?_fieldLine (hk f hf)

end TypeScript

/-! ## Typedefs -/

namespace Jsdoc

theorem newline_mem_fieldLine (h : ('\n' : CodePoint) ∉ spell f.type) :
    ('\n' : CodePoint) ∈ fieldLine f ↔ IsBroken f.key := by
  have hfront : ('\n' : CodePoint) ∉ Text.ofString " * @property \x7b" := by decide
  have hbrace : ('\n' : CodePoint) ∉ Text.ofString "\x7d " := by decide
  have hopen : ('\n' : CodePoint) ∉ Text.ofString "[" := by decide
  have hclose : ('\n' : CodePoint) ∉ Text.ofString "]" := by decide
  rw [← newline_mem_propertyKey, fieldLine, fieldName]
  cases f.optional <;>
    simp only [List.mem_append, hfront, h, hbrace, hopen, hclose, false_or, or_false, if_true,
      Bool.false_eq_true, if_false]

/-- **The key of a field is read from its line.** -/
theorem lineKey?_fieldLine (hk : f.key.IsWhole) (hb : ¬ IsBroken f.key)
    (ht : ('\x7d' : CodePoint) ∉ spell f.type) : lineKey? (fieldLine f) = some f.key := by
  have hcut : Text.cutAt '\x7d' (spell f.type ++ (("\x7d " : Text) ++ fieldName f)) =
      (spell f.type, ("\x7d " : Text) ++ fieldName f) :=
    Text.cutAt_append ht (by rintro c ⟨⟩; rfl)
  simp only [lineKey?, fieldLine, List.append_assoc, Text.behind?_append, Option.bind_eq_bind,
    Option.bind_some, hcut]
  cases ho : f.optional with
  | false =>
    have hkey : keyBefore? [] (propertyKey f.key ++ []) = some f.key :=
      keyBefore?_propertyKey hk hb (by rintro c ⟨⟩)
    rw [List.append_nil] at hkey
    rw [fieldName_of_not_optional ho, behind?_propertyKey]
    exact hkey
  | true =>
    have hname := fieldName_of_optional ho []
    rw [List.append_nil, List.append_nil] at hname
    rw [hname, Text.behind?_append]
    exact keyBefore?_propertyKey hk hb (by rintro c ⟨⟩; decide)

/-- **A typedef has a line for each property** exactly when no key was broken. -/
theorem linesOf_declare (hd : Shape.Lacks '\n' d) (hbrace : Shape.Lacks '\x7d' d)
    (hb : d.body = .record fields) (hk : ∀ f ∈ fields, f.key.IsWhole) :
    LinesOf lineKey? ["/**", (" * @typedef \x7bObject\x7d " : Text) ++ d.name] " */" fields
      (declare d) ↔ ∀ f ∈ fields, ¬ IsBroken f.key := by
  have hends : ∀ t ∈ [("/**" : Text), (" * @typedef \x7bObject\x7d " : Text) ++ d.name] ++
      [(" */" : Text)], ('\n' : CodePoint) ∉ t := by
    have hname : ('\n' : CodePoint) ∉ (" * @typedef \x7bObject\x7d " : Text) ++ d.name := by
      rw [List.mem_append, not_or]
      exact ⟨by decide, hd.name⟩
    exact List.forall_mem_cons.2
      ⟨by decide, List.forall_mem_cons.2 ⟨hname, List.forall_mem_singleton.2 (by decide)⟩⟩
  have hdeclare : declare d = Text.join "\n"
      ([("/**" : Text), (" * @typedef \x7bObject\x7d " : Text) ++ d.name] ++ fields.map fieldLine ++
        [(" */" : Text)]) := by
    rw [declare, hb]
    rfl
  rw [hdeclare]
  exact linesOf_iff hends
    (fun f hf => newline_mem_fieldLine (hd.not_mem_spell legible (by decide) hb hf))
    fun f hf h => lineKey?_fieldLine (hk f hf) h (hbrace.not_mem_spell legible (by decide) hb hf)

end Jsdoc

/-! ## Written declarations -/

/-- **The lines of interfaces and typedefs have the keys of the object**, unless one was broken. A
record is declared for an object with its keys. Between the lines around them, its interface and its
typedef have one line for each property, from which the key is read, as a plain name or a string
literal, exactly when no key is a plain name with a line feed behind it. -/
theorem property_lines {s : Shape} {useOptional : Bool} {root : Text}
    (hroot : ∀ c ∈ root, c ≠ '\n' ∧ c ≠ '\x7d') (hd : d ∈ s.declarations useOptional root)
    (hb : d.body = .record fields) (hk : ∀ f ∈ fields, f.key.IsWhole) :
    (∃ r ∈ s.records, fields.map (·.key) = Entries.names r.fields) ∧
    (LinesOf TypeScript.lineKey? [("interface " : Text) ++ d.name ++ " \x7b"] "\x7d" fields
      (TypeScript.declare d) ↔ ∀ f ∈ fields, ¬ IsBroken f.key) ∧
    (LinesOf Jsdoc.lineKey? ["/**", (" * @typedef \x7bObject\x7d " : Text) ++ d.name] " */" fields
      (Jsdoc.declare d) ↔ ∀ f ∈ fields, ¬ IsBroken f.key) := by
  have hline : Shape.Lacks '\n' d :=
    Shape.lacks_declarations (fun h => (hroot _ h).1 rfl) (by decide) (by decide) hd
  have hbrace : Shape.Lacks '\x7d' d :=
    Shape.lacks_declarations (fun h => (hroot _ h).2 rfl) (by decide) (by decide) hd
  exact ⟨Shape.exists_keys hd hb, TypeScript.linesOf_declare hline hb hk,
    Jsdoc.linesOf_declare hline hbrace hb hk⟩

/-- An object with keys that need quotes, and one that does not. -/
def lineSample : Value :=
  .object [("a b", .null), ("\n", .bool true), ("$a1", .string "x"), ("\"", .array [])]

/-- The declaration of its root. -/
def lineRoot : Declaration :=
  ⟨"Root", .record [⟨"a b", .null, .null, false⟩, ⟨"\n", .boolean, .boolean, false⟩,
    ⟨"$a1", .string, .text, false⟩, ⟨"\"", .array, .anyList, false⟩], []⟩

theorem property_lines_lineSample :
    LinesOf TypeScript.lineKey? ["interface Root \x7b"] "\x7d" lineRoot.fields
      (TypeScript.declare lineRoot) ∧
    LinesOf Jsdoc.lineKey? ["/**", " * @typedef \x7bObject\x7d Root"] " */" lineRoot.fields
      (Jsdoc.declare lineRoot) := by
  have hd : lineRoot ∈ (Shape.of lineSample).declarations true "Root" := by decide +kernel
  have hbroken : ∀ f ∈ lineRoot.fields, ¬ IsBroken f.key := by decide
  obtain ⟨-, hinterface, htypedef⟩ := property_lines (by decide) hd rfl (by decide)
  exact ⟨hinterface.2 hbroken, htypedef.2 hbroken⟩

/-- An object with a key that is a plain name with a line feed behind it. -/
def brokenSample : Value := .object [("a\n", .number (.int 1))]

/-- The declaration of its root. -/
def brokenRoot : Declaration := ⟨"Root", .record [⟨"a\n", .number, .number, false⟩], []⟩

/-- The line of a broken key is two. -/
theorem not_property_lines_broken :
    brokenRoot ∈ (Shape.of brokenSample).declarations true "Root" ∧
    ¬ LinesOf TypeScript.lineKey? ["interface Root \x7b"] "\x7d" brokenRoot.fields
      (TypeScript.declare brokenRoot) ∧
    ¬ LinesOf Jsdoc.lineKey? ["/**", " * @typedef \x7bObject\x7d Root"] " */" brokenRoot.fields
      (Jsdoc.declare brokenRoot) := by
  have hcount : ((TypeScript.declare brokenRoot).splitOn '\n').length = 4 ∧
      ((Jsdoc.declare brokenRoot).splitOn '\n').length = 5 := by
    decide +kernel
  refine ⟨by decide +kernel, ?_, ?_⟩
  · rintro ⟨lines, hlines, hkeys⟩
    have hlength := hcount.1
    rw [hlines, List.length_append, List.length_append, hkeys.length_eq] at hlength
    exact absurd hlength (by decide)
  · rintro ⟨lines, hlines, hkeys⟩
    have hlength := hcount.2
    rw [hlines, List.length_append, List.length_append, hkeys.length_eq] at hlength
    exact absurd hlength (by decide)

end TypeSketch
