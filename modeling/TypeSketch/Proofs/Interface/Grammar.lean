import TypeSketch.Proofs.ClassText
import TypeSketch.Proofs.Interface.Reading

/-!
# The grammar of types

* `Ty.ofShape`: the type that a shape is meant to have.
* `Derives`: **the grammar of types.** Brackets bind closer than bars, and parentheses group.
* `Derives.reads`: a type that the grammar derives is read.
* `Derives.unique`: **some tokens are derived as one type at most.**
* `derives_typeTokens`: the tokens of a written type are derived as what the type means.
* `lex`: the tokens of a type, in which names may have letters of any script.
* `parses_typeOf`: **the text of the type of a shape parses as the type that is meant**, and as no
  other.
-/

namespace TypeSketch.Interface

open TypeScript (spell)

/-! ## What shapes mean -/

/-- A type, or null besides. -/
def Ty.withNullable (nullable : Bool) (t : Ty) : Ty := if nullable then .union t .null else t

mutual

/-- The type that a shape is meant to have, given the name of the objects with properties that it
is, or that it has as elements. -/
def Ty.ofShape (name : Text) : Shape → Ty
  | ⟨kind, properties, _, items, nullable⟩ =>
    match kind with
    | .null => .null
    | .array => (Ty.array (.ofItems name items)).withNullable nullable
    | .object =>
      (if (properties.getD []).isEmpty then Ty.anyRecord else .ref name).withNullable nullable
    | .string => Ty.string.withNullable nullable
    | .number => Ty.number.withNullable nullable
    | .boolean => Ty.boolean.withNullable nullable

/-- The type of the elements of an array: nothing is known of elements that are missing or null. -/
def Ty.ofItems (name : Text) : Option Shape → Ty
  | none => .unknown
  | some s => if s.kind = .null then .unknown else .ofShape name s

end

/-! ## The grammar -/

/-- How closely the parts of a type are bound. -/
inductive Level where
  | primary
  | suffixed
  | union

/-- **The grammar of types.** A word or a type in parentheses is primary; any number of brackets may
stand behind it; and any number of such types may stand in a row with bars between them. -/
inductive Derives : Level → List Token → Ty → Prop
  | word (w : Text) : Derives .primary [.word w] (.ofWord w)
  | record : Derives .primary [.word "Record", .mark .angleOpen, .word "string", .mark .comma,
    .word "unknown", .mark .angleClose] .anyRecord
  | group {ts : List Token} {t : Ty} (h : Derives .union ts t) :
    Derives .primary (.mark .parenOpen :: ts ++ [.mark .parenClose]) t
  | primary {ts : List Token} {t : Ty} (h : Derives .primary ts t) : Derives .suffixed ts t
  | array {ts : List Token} {t : Ty} (h : Derives .suffixed ts t) :
    Derives .suffixed (ts ++ [.mark .bracketOpen, .mark .bracketClose]) (.array t)
  | operand {ts : List Token} {t : Ty} (h : Derives .suffixed ts t) : Derives .union ts t
  | union {ls rs : List Token} {l r : Ty} (hl : Derives .union ls l) (hr : Derives .suffixed rs r) :
    Derives .union (ls ++ .mark .bar :: rs) (.union l r)

variable {ts rest : List Token} {t u : Ty} {level : Level}

/-- What reading does with the tokens of a type, whatever stands around them: one that is bound as
closely as by brackets is the operand; of a union the last operand is, behind the others. -/
def Reads (level : Level) (ts : List Token) (t : Ty) : Prop :=
  ∀ (outer : List (Option Ty)) (rest : List Token), rest.head? ≠ some (.mark .angleOpen) →
    match level with
    | .union => ∃ left right, Ty.join left right = t ∧
        readType outer none none (ts ++ rest) = readType outer left (some right) rest
    | _ => ∀ left, readType outer left none (ts ++ rest) = readType outer left (some t) rest

/-- **A type that the grammar derives is read.** -/
theorem Derives.reads (h : Derives level ts t) : Reads level ts t := by
  induction h with
  | word w => exact fun outer rest hrest left => readType_word hrest
  | record => exact fun outer rest hrest left => rfl
  | @group ts t h ih =>
    intro outer rest hrest left
    have hclose : (.mark .parenOpen :: ts ++ [.mark .parenClose]) ++ rest =
        Token.mark .parenOpen :: (ts ++ .mark .parenClose :: rest) := by
      simp
    -- the union in parentheses is joined when they close
    obtain ⟨left', right, hjoin, hread⟩ := ih (left :: outer) (.mark .parenClose :: rest) (by simp)
    rw [hclose, readType, hread, readType, hjoin]
  | primary h ih => exact ih
  | array h ih =>
    intro outer rest hrest left
    rw [List.append_assoc, ih outer _ (by simp) left]
    rfl
  | operand h ih => exact fun outer rest hrest => ⟨none, _, rfl, ih outer rest hrest none⟩
  | @union ls rs l r hl hr ihl ihr =>
    intro outer rest hrest
    obtain ⟨left, right, hjoin, hread⟩ := ihl outer (.mark .bar :: (rs ++ rest)) (by simp)
    refine ⟨some l, r, rfl, ?_⟩
    rw [List.append_assoc, List.cons_append, hread, readType, hjoin, ihr outer rest hrest (some l)]

/-- Reading the tokens of a type gives the type. -/
theorem Derives.readType_eq (h : Derives .union ts t) : readType [] none none ts = some t := by
  obtain ⟨left, right, hjoin, hread⟩ := h.reads [] [] (by simp)
  rw [List.append_nil] at hread
  rw [hread, readType, hjoin]

/-- **Some tokens are derived as one type at most.** -/
theorem Derives.unique (ht : Derives .union ts t) (hu : Derives .union ts u) : t = u := by
  have hread := ht.readType_eq
  rw [hu.readType_eq] at hread
  exact (Option.some.inj hread).symm

/-! ## Written types -/

/-- How closely the parts of a written type are bound. -/
def levelOf : TypeExpr → Level
  | .orNull _ => .union
  | _ => .suffixed

theorem Derives.of_levelOf {e : TypeExpr} (h : Derives (levelOf e) ts t) : Derives .union ts t := by
  cases e with
  | orNull e => exact h
  | _ => exact .operand h

/-- **The tokens of a written type are derived as what the type means.** -/
theorem derives_typeTokens {e : TypeExpr} (he : ∀ n ∈ e.names, Ty.ofWord n = .ref n) :
    Derives (levelOf e) (typeTokens e) (.of e) := by
  induction e with
  | null | text | number | boolean => exact .primary (.word _)
  | named n =>
    have hword := Derives.word n
    rw [he n List.mem_cons_self] at hword
    exact .primary hword
  | anyObject => exact .primary .record
  | anyList => exact .array (.primary (.word "unknown"))
  | list e ih =>
    rw [typeTokens]
    split
    · have hgroup := Derives.group (ih he).of_levelOf
      have hsplit : Token.mark .parenOpen :: (typeTokens e ++
          [.mark .parenClose, .mark .bracketOpen, .mark .bracketClose]) =
          (.mark .parenOpen :: typeTokens e ++ [.mark .parenClose]) ++
            [.mark .bracketOpen, .mark .bracketClose] := by
        simp
      rw [hsplit]
      exact .array (.primary hgroup)
    · -- an element type without a bar in it is not a union
      next hbar =>
      have hlevel : levelOf e = .suffixed := by
        cases e with
        | orNull e => cases spine_of_no_bar hbar
        | _ => rfl
      have helement := ih he
      rw [hlevel] at helement
      exact .array helement
  | orNull e ih => exact .union (ih he).of_levelOf (.primary (.word "null"))

/-! ## Tokens of types -/

/-- Whether a name may begin with a code point. -/
def startsWord (c : CodePoint) : Bool := c.startsIdentifier || c = '$'

/-- Whether a name may go on with a code point. -/
def continuesWord (c : CodePoint) : Bool := c.continuesIdentifier || c = '$'

/-- Whether a text is a name: an identifier, in which there may be dollar signs. -/
def isName : Text → Bool
  | [] => false
  | c :: rest => startsWord c && rest.all continuesWord

/-- The tokens of a type. Blanks only keep names apart, and a name goes on as far as it can. -/
def lex (t : Text) : Option (List Token) :=
  match t with
  | [] => some []
  | c :: rest =>
    if c = ' ' then lex rest
    else if startsWord c then
      (lex (rest.dropWhile continuesWord)).map (.word (c :: rest.takeWhile continuesWord) :: ·)
    else
      match Mark.ofCodePoint? c with
      | some m => (lex rest).map (.mark m :: ·)
      | none => none
termination_by t.length
decreasing_by
  · exact Nat.lt_succ_self _
  · exact Nat.lt_succ_of_le (List.dropWhile_suffix _).length_le
  · exact Nat.lt_succ_self _

variable {x : Text} {c : CodePoint}

theorem lex_blank (h : lex x = some ts) : lex (' ' :: x) = some ts := by
  rw [lex, if_pos rfl, h]

theorem lex_mark {m : Mark} (hm : Mark.ofCodePoint? c = some m) (h : lex x = some ts) :
    lex (c :: x) = some (.mark m :: ts) := by
  -- no sign is a blank, or begins a name
  have hall : ∀ p ∈ Mark.all, CodePoint.ofChar p.1 ≠ ' ' ∧ startsWord p.1 = false := by decide
  obtain ⟨p, hp, -⟩ := Option.map_eq_some_iff.1 hm
  obtain ⟨hblank, hname⟩ := hall p (List.mem_of_find?_eq_some hp)
  obtain rfl : CodePoint.ofChar p.1 = c := by simpa using List.find?_some hp
  rw [lex, if_neg hblank, if_neg (by simpa using hname), hm]
  simp [h]

theorem lex_word {w : Text} (hw : isName w = true)
    (hx : ∀ c ∈ x.head?, continuesWord c = false) (h : lex x = some ts) :
    lex (w ++ x) = some (.word w :: ts) := by
  cases w with
  | nil => cases hw
  | cons c w =>
    rw [isName, Bool.and_eq_true] at hw
    have hcut := Text.span_append (List.all_eq_true.1 hw.2) hx
    rw [List.span_eq_takeWhile_dropWhile, Prod.mk.injEq] at hcut
    have hblank : c ≠ ' ' := by
      rintro rfl
      exact absurd hw.1 (by decide)
    rw [List.cons_append, lex, if_neg hblank, if_pos hw.1, hcut.1, hcut.2, h]
    rfl

theorem cuts_lex : Cuts lex isName continuesWord where
  blank := lex_blank
  mark := lex_mark
  word := lex_word
  plain := by decide
  ends := by decide

/-! ## Types of shapes -/

section Shapes

open Shape (typeFrom typeFromItems)

variable {name : Nat → Text} {root n : Text} {i : Nat} {s : Shape}

theorem Ty.of_withNullable (nullable : Bool) (e : TypeExpr) :
    Ty.of (e.withNullable nullable) = (Ty.of e).withNullable nullable := by
  cases nullable <;> rfl

mutual

/-- **The type of a shape means what is intended.** -/
theorem of_typeFrom (name : Nat → Text) (i : Nat) :
    ∀ s : Shape, Ty.of (typeFrom name i s) = .ofShape (name i) s
  | ⟨kind, properties, required, items, nullable⟩ => by
    cases kind with
    | null => rfl
    | string | number | boolean =>
      rw [typeFrom, Ty.of_withNullable]
      · rfl
      all_goals nofun
    | array =>
      rw [typeFrom, Ty.of_withNullable, of_typeFromItems name i items]
      rfl
    | object =>
      rw [typeFrom, Ty.of_withNullable, Ty.ofShape]
      split <;> rfl

theorem of_typeFromItems (name : Nat → Text) (i : Nat) :
    ∀ items : Option Shape, Ty.of (typeFromItems name i items) = .array (.ofItems (name i) items)
  | none => rfl
  | some s => by
    rw [typeFromItems, Ty.ofItems]
    split
    · rfl
    · exact congrArg Ty.array (of_typeFrom name i s)

end

/-- The type of a shape refers to the first record in it, if to any. -/
theorem eq_of_mem_names (h : n ∈ (typeFrom name i s).names) : n = name i := by
  induction s using Shape.records_induction with
  | bare s hb =>
    rw [hb.names_typeFrom] at h
    cases h
  | array s t hk hi ih =>
    rw [Shape.typeFrom_of_array hk hi, TypeExpr.names_withNullable] at h
    split at h
    · cases h
    · exact ih h
  | record s hr =>
    rw [Shape.typeFrom_of_record hr, TypeExpr.names_withNullable] at h
    exact List.mem_singleton.1 h

/-- The name of a nested type is a name, if that of the root is one. -/
theorem isName_nestedName (hroot : isName root = true) (i : Nat) :
    isName (nestedName root i) = true := by
  obtain ⟨tail, htail, hdigits⟩ := nestedName_eq root i
  rw [htail, List.append_assoc]
  cases root with
  | nil => cases hroot
  | cons c root =>
    rw [isName, Bool.and_eq_true] at hroot
    rw [List.cons_append, isName, Bool.and_eq_true, List.all_append, Bool.and_eq_true,
      List.all_append, Bool.and_eq_true]
    refine ⟨hroot.1, hroot.2, by decide, List.all_eq_true.2 fun d hd => ?_⟩
    rw [continuesWord, CodePoint.continuesIdentifier_of_isDigit (hdigits d hd), Bool.true_or]

/-- **The text of the type of a shape parses as the type that is meant**, and as no other. Whatever
the shape and the names that were handed out before, the text of its type has the tokens of one type
of the grammar: that of the shape, in which objects with properties have the name that is handed out
next. -/
theorem parses_typeOf (hroot : isName root = true) (useOptional : Bool) (s : Shape) (i : Nat)
    (done : List Declaration) :
    ∃ ts, lex (spell (s.typeOf useOptional ⟨.after root i, done⟩).1) = some ts ∧
      ∀ t, Derives .union ts t ↔ t = .ofShape (nestedName root i) s := by
  have hname : ∀ n ∈ (typeFrom (nestedName root) i s).names,
      isName n = true ∧ Ty.ofWord n = .ref n := by
    intro n hn
    obtain rfl := eq_of_mem_names hn
    obtain ⟨tail, htail, -⟩ := nestedName_eq root i
    exact ⟨isName_nestedName hroot i, ofWord_of_marked ⟨root, tail, htail.symm⟩⟩
  refine ⟨typeTokens (typeFrom (nestedName root) i s), ?_, fun t => ⟨fun h => ?_, ?_⟩⟩
  · have hend : lex [] = some [] := by rw [lex]
    have hnil : ∀ c ∈ ([] : Text).head?, continuesWord c = false := nofun
    have hlex := cuts_lex.spell (fun n hn => (hname n hn).1) hnil hend
    rw [List.append_nil, List.append_nil] at hlex
    rw [Shape.typeOf_numbered]
    exact hlex
  · rw [← of_typeFrom]
    exact h.unique (derives_typeTokens fun n hn => (hname n hn).2).of_levelOf
  · rintro rfl
    rw [← of_typeFrom]
    exact (derives_typeTokens fun n hn => (hname n hn).2).of_levelOf

/-- Rows of objects, any of which may be null. -/
def gridShape : Shape :=
  let cell : Shape := { kind := .object, nullable := true, properties := some [("a", .null)] }
  let row : Shape := { kind := .array, nullable := true, items := some cell }
  { kind := .array, nullable := true, items := some row }

theorem parses_typeOf_gridShape :
    ∃ ts, lex "((Gr\u00f6\u00dfeNested | null)[] | null)[] | null" = some ts ∧
      ∀ t, Derives .union ts t ↔
        t = .union (.array (.union (.array (.union (.ref "Gr\u00f6\u00dfeNested") .null)) .null))
          .null := by
  have htext : spell (gridShape.typeOf true ⟨.after "Gr\u00f6\u00dfe" 0, []⟩).1 =
      "((Gr\u00f6\u00dfeNested | null)[] | null)[] | null" := by
    decide +kernel
  have hroot : isName "Gr\u00f6\u00dfe" = true := by decide +kernel
  obtain ⟨ts, hts, hparse⟩ := parses_typeOf hroot true gridShape 0 []
  rw [htext] at hts
  exact ⟨ts, hts, hparse⟩

end Shapes

end TypeSketch.Interface
