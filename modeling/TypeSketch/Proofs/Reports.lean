import TypeSketch.Proofs.Closing
import TypeSketch.Proofs.Portable
import TypeSketch.Survey

/-!
# What reports cite

The report on a fault is a sentence of the program with numbers in it, or with a text that comes
from elsewhere: a path, the name of a format, a tag. Only such a text can close a tag.

* `Neutral`: a text that can stand around any other without closing anything.
* `Fault.cited`: the text from elsewhere in the report on a fault.
* `closesNothing_message`: **a report closes nothing when nothing that it cites does.**
* `closesNothing_quoted`, `closesNothing_normalize`: quoting a text and normalizing a path keep
  this.
-/

namespace TypeSketch

namespace Markup

variable {t u : Text} {c d : CodePoint}

/-! ## Texts without brackets and slashes -/

/-- A text that can stand around any other, without a bracket that begins a tag and without a slash
that closes one. -/
def Neutral (t : Text) : Prop := ∀ c ∈ t, c ≠ '[' ∧ c ≠ '/'

theorem Neutral.append (ht : Neutral t) (hu : Neutral u) : Neutral (t ++ u) :=
  List.forall_mem_append.2 ⟨ht, hu⟩

theorem Neutral.closesNothing (h : Neutral t) : ClosesNothing t :=
  .of_not_mem_bracket fun hin => (h _ hin).1 rfl

/-- What is not among the characters of a literal is not in its text. -/
theorem not_mem_literal {ch : Char} {l : List Char} (h : ch ∉ l) :
    CodePoint.ofChar ch ∉ Text.ofString (String.ofList l) := by
  intro hin
  unfold Text.ofString at hin
  rw [String.toList_ofList] at hin
  obtain ⟨d, hd, he⟩ := List.mem_map.1 hin
  have hsame : d = ch := Char.ext (UInt32.toNat_inj.1 (congrArg CodePoint.val he))
  exact h (hsame ▸ hd)

theorem neutral_literal {l : List Char} (h : '[' ∉ l ∧ '/' ∉ l := by decide) :
    Neutral (Text.ofString (String.ofList l)) := by
  intro c hc
  constructor <;> rintro rfl
  · exact not_mem_literal h.1 hc
  · exact not_mem_literal h.2 hc

theorem neutral_decimal (n : Nat) : Neutral (Text.decimal n) := by
  intro c hc
  have hdigit : c.isDigit = true := Text.isDigit_of_mem_decimal c hc
  constructor <;> rintro rfl <;> exact absurd hdigit (by decide)

theorem neutral_decimalInt (n : Int) : Neutral (Text.decimalInt n) := by
  cases n with
  | ofNat n => exact neutral_decimal n
  | negSucc n => exact List.forall_mem_cons.2 ⟨by decide, neutral_decimal _⟩

theorem neutral_hex (width n : Nat) : Neutral (Text.hex width n) :=
  Text.forall_mem_hex (by decide) width n

namespace ClosesNothing

/-- A sentence that ends in a text closes nothing when the text does not. -/
theorem citing (h : ClosesNothing u) (ht : Neutral t) : ClosesNothing (t ++ u) :=
  ht.closesNothing.append h (.inl fun hlast => (ht _ (List.mem_of_mem_getLast? hlast)).1 rfl)

/-- A sentence may go on behind such a text. -/
theorem cited (h : ClosesNothing t) (hu : Neutral u) : ClosesNothing (t ++ u) :=
  h.append hu.closesNothing (.inr fun hhead => (hu _ (List.mem_of_mem_head? hhead)).2 rfl)

theorem of_not_mem_slash (h : ('/' : CodePoint) ∉ t) : ClosesNothing t := by
  induction t with
  | nil => exact .nil
  | cons c t ih =>
    have hrest : ('/' : CodePoint) ∉ t := fun hin => h (List.mem_cons_of_mem _ hin)
    refine List.isChain_cons.2 ⟨fun d hd _ => ?_, ih hrest⟩
    rintro rfl
    exact hrest (List.mem_of_mem_head? hd)

/-- What a code point is spelled out as closes nothing. -/
theorem of_spelled {piece : Text} (h : ∀ d ∈ piece, d = '[' ∨ d = '/' → d = c) :
    ClosesNothing piece := by
  by_cases hc : ('[' : CodePoint) ∈ piece
  · refine of_not_mem_slash fun hslash => ?_
    have hbracket := h _ hc (.inl rfl)
    have hsame := h _ hslash (.inr rfl)
    rw [← hbracket] at hsame
    exact absurd hsame (by decide)
  · exact of_not_mem_bracket hc

/-- Spelling out single code points, but no bracket and no slash, begins no tag. -/
theorem flatMap {f : CodePoint → Text} (hne : ∀ c, f c ≠ [])
    (hf : ∀ c, ∀ d ∈ f c, d = '[' ∨ d = '/' → d = c) (h : ClosesNothing t) :
    ClosesNothing (t.flatMap f) := by
  have hnil : [] ∉ t.map f := by
    intro hin
    obtain ⟨c, -, hc⟩ := List.mem_map.1 hin
    exact hne c hc
  unfold ClosesNothing at h ⊢
  rw [List.flatMap_def, List.isChain_flatten hnil, List.isChain_map]
  refine ⟨fun piece hpiece => ?_, h.imp fun c d hcd x hx y hy => ?_⟩
  · obtain ⟨c, -, rfl⟩ := List.mem_map.1 hpiece
    exact of_spelled (hf c)
  · rintro rfl rfl
    have hc := hf c _ (List.mem_of_mem_getLast? hx) (.inl rfl)
    have hd := hf d _ (List.mem_of_mem_head? hy) (.inr rfl)
    exact hcd hc.symm hd.symm

end ClosesNothing

/-- Quoting spells nothing out as a bracket or a slash. -/
theorem eq_of_mem_quotedIn {quote : CodePoint} (h : d ∈ CodePoint.quotedIn quote c)
    (hd : d = '[' ∨ d = '/') : d = c := by
  have hescaped : ∀ {t : Text}, Neutral t → d ∉ t := by
    intro t ht hin
    rcases hd with rfl | rfl
    · exact (ht _ hin).1 rfl
    · exact (ht _ hin).2 rfl
  have hhex : ∀ {front : Text} (width : Nat), Neutral front →
      d ∉ front ++ Text.hex width c.val :=
    fun width hfront => hescaped (hfront.append (neutral_hex width _))
  unfold CodePoint.quotedIn at h
  split_ifs at h
  · rcases List.mem_cons.1 h with rfl | h
    · rcases hd with hd | hd <;> exact absurd hd (by decide)
    · exact List.mem_singleton.1 h
  · exact absurd h (hescaped neutral_literal)
  · exact absurd h (hescaped neutral_literal)
  · exact absurd h (hescaped neutral_literal)
  · exact List.mem_singleton.1 h
  · exact absurd h (hhex 2 neutral_literal)
  · exact absurd h (hhex 4 neutral_literal)
  · exact absurd h (hhex 8 neutral_literal)

theorem quotedIn_ne_nil (quote c : CodePoint) : CodePoint.quotedIn quote c ≠ [] := by
  unfold CodePoint.quotedIn
  split_ifs <;> simp [Text.ofString]

theorem quoteFor_ne (t : Text) : t.quoteFor ≠ '[' ∧ t.quoteFor ≠ '/' := by
  unfold Text.quoteFor
  split <;> decide

/-- A text between quotes closes nothing when the text does not. -/
theorem closesNothing_quoted (h : ClosesNothing t) : ClosesNothing t.quoted := by
  have hquote := quoteFor_ne t
  have hinner : ClosesNothing (t.flatMap (CodePoint.quotedIn t.quoteFor)) :=
    h.flatMap (quotedIn_ne_nil _) fun c d hd => eq_of_mem_quotedIn hd
  have hend : ClosesNothing (t.flatMap (CodePoint.quotedIn t.quoteFor) ++ [t.quoteFor]) :=
    hinner.append (.singleton _) (.inr fun hhead => hquote.2 (Option.some.inj hhead))
  exact List.isChain_cons.2 ⟨fun d _ hbracket => absurd hbracket hquote.1, hend⟩

/-- A sentence without slashes that ends in a quoted text closes nothing when the text does not. -/
theorem closesNothing_quoting {l : List Char} (h : ClosesNothing t) (hl : '/' ∉ l := by decide) :
    ClosesNothing (Text.ofString (String.ofList l) ++ t.quoted) := by
  have hsentence : ClosesNothing (Text.ofString (String.ofList l)) :=
    .of_not_mem_slash (not_mem_literal hl)
  refine hsentence.append (closesNothing_quoted h) (.inr fun hhead => ?_)
  exact (quoteFor_ne t).2 (Option.some.inj hhead)

/-! ## Paths -/

theorem join_cons_cons (sep t u : Text) (parts : List Text) :
    Text.join sep (t :: u :: parts) = t ++ sep ++ Text.join sep (u :: parts) := rfl

theorem join_splitOn (sep : CodePoint) (t : Text) : Text.join [sep] (t.splitOn sep) = t := by
  induction t with
  | nil => rfl
  | cons c t ih =>
    obtain ⟨piece, pieces, hpieces⟩ := List.exists_cons_of_ne_nil (Text.splitOn_ne_nil sep t)
    rw [hpieces] at ih
    rw [Text.splitOn, hpieces]
    split
    · next hc =>
      rw [join_cons_cons, ih, hc]
      rfl
    · rw [← ih]
      cases pieces <;> rfl

/-- Parts that are joined with slashes close nothing when none of them does, and none ends in a
bracket that a slash would follow. -/
theorem closesNothing_join {parts : List Text} : ClosesNothing (Text.join "/" parts) ↔
    (∀ part ∈ parts, ClosesNothing part) ∧
      List.IsChain (fun part _ : Text => part.getLast? ≠ some ('[' : CodePoint)) parts := by
  induction parts with
  | nil => exact ⟨fun _ => ⟨nofun, .nil⟩, fun _ => .nil⟩
  | cons part parts ih =>
    cases parts with
    | nil =>
      refine ⟨fun h => ⟨fun p hp => ?_, .singleton _⟩, fun h => h.1 part List.mem_cons_self⟩
      rw [List.mem_singleton.1 hp]
      exact h
    | cons next rest =>
      have hjoin : Text.join "/" (part :: next :: rest) =
          part ++ ('/' : CodePoint) :: Text.join "/" (next :: rest) := by
        rw [join_cons_cons, List.append_assoc]
        rfl
      have hslash : ClosesNothing (('/' : CodePoint) :: Text.join "/" (next :: rest)) ↔
          ClosesNothing (Text.join "/" (next :: rest)) := by
        refine ⟨List.IsChain.tail, fun h => List.isChain_cons.2 ⟨fun d _ hd => ?_, h⟩⟩
        exact absurd hd (by decide)
      have hlast : (∀ x ∈ part.getLast?,
          ∀ y ∈ (('/' : CodePoint) :: Text.join "/" (next :: rest)).head?, x = '[' → y ≠ '/') ↔
            part.getLast? ≠ some ('[' : CodePoint) := by
        constructor
        · intro h hbracket
          exact h _ hbracket _ rfl rfl rfl
        · rintro h x hx y - rfl
          exact absurd hx h
      have hsplit : ClosesNothing (part ++ ('/' : CodePoint) :: Text.join "/" (next :: rest)) ↔
          ClosesNothing part ∧ ClosesNothing (('/' : CodePoint) :: Text.join "/" (next :: rest)) ∧
            part.getLast? ≠ some ('[' : CodePoint) := by
        rw [← hlast]
        exact List.isChain_append
      have hmem : (∀ p ∈ part :: next :: rest, ClosesNothing p) ↔
          ClosesNothing part ∧ ∀ p ∈ next :: rest, ClosesNothing p := List.forall_mem_cons
      rw [hjoin, hsplit, hslash, ih, hmem, List.isChain_cons_cons]
      exact ⟨fun ⟨hp, ⟨hn, hc⟩, hl⟩ => ⟨⟨hp, hn⟩, hl, hc⟩,
        fun ⟨⟨hp, hn⟩, hl, hc⟩ => ⟨hp, ⟨hn, hc⟩, hl⟩⟩

/-- A path in normal form closes nothing when the path does not. -/
theorem closesNothing_normalize (h : ClosesNothing t) : ClosesNothing (FilePath.normalize t) := by
  have hparts : ClosesNothing (Text.join "/" (FilePath.parts t)) := by
    rw [← join_splitOn '/' t] at h
    obtain ⟨heach, hlast⟩ := closesNothing_join.1 h
    -- a part that is left out brings no bracket in front of a slash, since each part ends in none
    have hkept : (FilePath.parts t).Sublist (t.splitOn '/') := List.filter_sublist
    have htrans : Trans (fun p _ : Text => p.getLast? ≠ some ('[' : CodePoint))
        (fun p _ : Text => p.getLast? ≠ some ('[' : CodePoint))
        (fun p _ : Text => p.getLast? ≠ some ('[' : CodePoint)) := ⟨fun hp _ => hp⟩
    exact closesNothing_join.2 ⟨fun part hpart => heach part (hkept.mem hpart), hlast.sublist hkept⟩
  -- the root is slashes only
  have hroot : ('[' : CodePoint) ∉ FilePath.rootOf t := by
    intro hin
    have hslashes : ∀ c ∈ t.takeWhile (CodePoint.is '/'), c = '/' := by
      intro c hc
      simpa [CodePoint.is] using List.mem_takeWhile_imp hc
    unfold FilePath.rootOf at hin
    dsimp only at hin
    split at hin
    · exact absurd (hslashes _ hin) (by decide)
    · exact absurd (hslashes _ (List.mem_of_mem_take hin)) (by decide)
  have hwhole : ClosesNothing (FilePath.rootOf t ++ Text.join "/" (FilePath.parts t)) := by
    refine ClosesNothing.append (.of_not_mem_bracket hroot) hparts (.inl fun hlast => ?_)
    exact hroot (List.mem_of_mem_getLast? hlast)
  unfold FilePath.normalize
  dsimp only
  split
  · decide
  · exact hwhole

end Markup

namespace Fault

open Markup

/-- The text from elsewhere that the report on a fault holds. -/
def cited : Fault → Option Text
  | unsupportedFormat given | unknownKind given => some given.display
  | foreignValue typeName => some typeName
  | missingFile path | notFound path | isDirectory path | notDirectory path => some path
  | markup fault => some fault.message
  | _ => none

/-- A fault that cites nothing that closes a tag. -/
def Harmless (f : Fault) : Prop := ∀ t ∈ f.cited, ClosesNothing t

/-- A fault that cites nothing. -/
theorem harmless_of_cited {f : Fault} (h : f.cited = none) : f.Harmless := by
  intro t ht
  rw [h] at ht
  cases ht

theorem neutral_complaint (c : Json.Complaint) : Neutral c.message := by
  have hproblem : Neutral c.problem.message := by
    cases c.problem <;> exact neutral_literal
  exact hproblem.append neutral_literal |>.append (neutral_decimal _) |>.append neutral_literal
    |>.append (neutral_decimal _) |>.append neutral_literal |>.append (neutral_decimal _)
    |>.append neutral_literal

theorem neutral_flaw (f : Utf8.Flaw) : Neutral f.message := by
  have hsentence : ∀ {place why : Text}, Neutral place → Neutral why →
      Neutral (Text.ofString "'utf-8' codec can't decode " ++ place ++ Text.ofString ": " ++
        why) :=
    fun hplace hwhy => Neutral.append neutral_literal hplace |>.append neutral_literal
      |>.append hwhy
  apply hsentence
  · split
    · exact Neutral.append neutral_literal (neutral_hex _ _) |>.append neutral_literal
        |>.append (neutral_decimal _)
    · exact Neutral.append neutral_literal (neutral_decimal _) |>.append neutral_literal
        |>.append (neutral_decimal _)
  · split <;> exact neutral_literal

theorem neutral_table (f : TableFault) : Neutral f.message := by
  cases f with
  | noColumns => exact neutral_literal
  | longRow expected line seen =>
    exact Neutral.append neutral_literal (neutral_decimal _) |>.append neutral_literal
      |>.append (neutral_decimal _) |>.append neutral_literal |>.append (neutral_decimal _)
      |>.append neutral_literal
  | openQuote row => exact Neutral.append neutral_literal (neutral_decimal row)

/-- The place of a code point that cannot be encoded closes nothing, though it spells it out. -/
theorem closesNothing_unencodable (first : CodePoint) (offset count : Nat) :
    ClosesNothing (message (.unencodable first offset count)) := by
  have hsentence : ∀ {place : Text}, ClosesNothing place → ClosesNothing
      (Text.ofString "'utf-8' codec can't encode " ++ place ++
        Text.ofString ": surrogates not allowed") :=
    fun hplace => (hplace.citing neutral_literal).cited neutral_literal
  apply hsentence
  split
  · have hfirst : ClosesNothing (CodePoint.quotedIn '\'' first) :=
      .of_spelled fun d hd => eq_of_mem_quotedIn hd
    exact (hfirst.citing neutral_literal).cited neutral_literal |>.cited (neutral_decimal _)
  · exact Neutral.append neutral_literal (neutral_decimal _) |>.append neutral_literal
      |>.append (neutral_decimal _) |>.closesNothing

/-- **A report closes nothing when nothing that it cites does.** -/
theorem closesNothing_message {f : Fault} (h : f.Harmless) : ClosesNothing f.message := by
  cases f with
  | unsupportedFormat given => exact (h _ rfl).citing neutral_literal
  | unknownKind given => exact (h _ rfl).cited neutral_literal
  | foreignValue typeName => exact ((h _ rfl).citing neutral_literal).cited neutral_literal
  | missingFile path => exact (h _ rfl).citing neutral_literal
  | notFound path | isDirectory path | notDirectory path => exact closesNothing_quoting (h _ rfl)
  | markup fault => exact h _ rfl
  | unencodable first offset count => exact closesNothing_unencodable first offset count
  | emptyInput | noSamples | nothingToMerge | namelessRoot | missingKind | recordNotObject
  | propertiesNotObject | requiredNotLabels | noDepthLimit | incompleteDocument =>
    exact Neutral.closesNothing neutral_literal
  | malformedInput complaint | malformedLine complaint =>
    exact (neutral_complaint complaint).closesNothing
  | undecodable flaw => exact (neutral_flaw flaw).closesNothing
  | table fault => exact (neutral_table fault).closesNothing
  | longInteger digits =>
    exact Neutral.append neutral_literal (neutral_decimal _) |>.append neutral_literal
      |>.append (neutral_decimal _) |>.append neutral_literal |>.closesNothing
  | sampleCount count =>
    exact Neutral.append neutral_literal (neutral_decimalInt count) |>.closesNothing
  | tooLarge bytes limit =>
    have hsize : Neutral (kilobytes bytes) :=
      (neutral_decimal _).append neutral_literal |>.append (neutral_decimal _)
    exact Neutral.append neutral_literal hsize |>.append neutral_literal
      |>.append (neutral_decimalInt limit) |>.append neutral_literal |>.closesNothing
  | tooDeep limit =>
    cases limit with
    | none => exact Neutral.closesNothing neutral_literal
    | some limit =>
      exact Neutral.append neutral_literal (neutral_decimalInt limit) |>.append neutral_literal
        |>.closesNothing

end Fault

end TypeSketch
