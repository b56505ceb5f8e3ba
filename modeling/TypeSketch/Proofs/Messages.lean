import TypeSketch.Console
import TypeSketch.Proofs.Integers

/-!
# Messages in one style

What is announced on the console is a text inside one pair of tags. When the text has neither
brackets nor backslashes, it is shown as it stands, so that announcing never fails.

* `styled`: a text inside the tags of a style.
* `tokens_styled`: its parts are the opening tag, the text and the closing tag.
* `markedUp_styled`: **a text without brackets and backslashes is printed in any style.**
-/

namespace TypeSketch.Markup

variable {t style body rest plain : Text} {offset : Nat}

/-- A tag in front of a text. -/
def tagOnto (inside rest : Text) : Text :=
  ('[' : CodePoint) :: (inside ++ (']' : CodePoint) :: rest)

/-- A text inside the tags of a style. -/
def styled (style body : Text) : Text :=
  tagOnto style (body ++ tagOnto (('/' : CodePoint) :: style) [])

/-- A text that no markup is read into. -/
def Unmarked (t : Text) : Prop := ∀ c ∈ t, c ≠ '[' ∧ c ≠ '\\'

instance : Decidable (Unmarked t) := inferInstanceAs (Decidable (∀ c ∈ t, c ≠ '[' ∧ c ≠ '\\'))

theorem Unmarked.append {u : Text} (ht : Unmarked t) (hu : Unmarked u) : Unmarked (t ++ u) :=
  fun c hc => (List.mem_append.1 hc).elim (ht c) (hu c)

/-- The name of a style as it stands in a tag: a tag is begun by its first letter, nothing in it
ends the tag or begins parameters, and no white space is around it. -/
structure IsTagName (style : Text) : Prop where
  begins : ∃ c rest, style = c :: rest ∧ c.isLower = true
  inner : ∀ c ∈ style, c ≠ '[' ∧ c ≠ ']' ∧ c ≠ '='
  stripped : style.strip = style

theorem tagAt?_of_plain {c : CodePoint} (hc : c ≠ '[' ∧ c ≠ '\\') : tagAt? (c :: rest) = none := by
  unfold tagAt?
  rw [List.dropWhile_cons_of_neg (by simpa [CodePoint.is] using hc.2)]
  exact if_neg hc.1

/-- A row of plain code points becomes a part of the plain text. -/
theorem tokensFrom_plain (ht : Unmarked t) :
    tokensFrom offset plain (t ++ rest) =
      tokensFrom (offset + t.length) (t.reverse ++ plain) rest := by
  induction t generalizing offset plain with
  | nil => rfl
  | cons c t ih =>
    have hstep : tokensFrom offset plain (c :: (t ++ rest)) =
        tokensFrom (offset + 1) (c :: plain) (t ++ rest) := by
      rw [tokensFrom]
      split
      · next h =>
        rw [tagAt?_of_plain (ht c List.mem_cons_self)] at h
        cases h
      · rfl
    rw [List.cons_append, hstep, ih fun d hd => ht d (List.mem_cons_of_mem _ hd)]
    simp [Nat.add_comm, Nat.add_left_comm]

theorem tagInside?_closed {c : CodePoint} (hc : beginsTag c = true)
    (hin : ∀ d ∈ c :: t, d ≠ '[' ∧ d ≠ ']') :
    tagInside? (c :: t ++ (']' : CodePoint) :: rest) = some (c :: t, rest) := by
  have hinside : ∀ d ∈ c :: t, (d ≠ '[' && d ≠ ']') = true := by simpa using hin
  have htake : (c :: t ++ (']' : CodePoint) :: rest).takeWhile
      (fun d : CodePoint => d ≠ '[' && d ≠ ']') = c :: t := by
    rw [List.takeWhile_append_of_pos hinside, List.takeWhile_cons_of_neg (by decide),
      List.append_nil]
  have hdrop : (c :: t ++ (']' : CodePoint) :: rest).dropWhile
      (fun d : CodePoint => d ≠ '[' && d ≠ ']') = (']' : CodePoint) :: rest := by
    rw [List.dropWhile_append_of_pos hinside, List.dropWhile_cons_of_neg (by decide)]
  rw [List.cons_append] at htake hdrop ⊢
  unfold tagInside?
  simp only [htake, hdrop]
  rw [if_pos (by simp [hc])]

theorem tagAt?_tagOnto {c : CodePoint} (hc : beginsTag c = true)
    (hin : ∀ d ∈ c :: t, d ≠ '[' ∧ d ≠ ']') :
    tagAt? (tagOnto (c :: t) rest) = some (0, c :: t, rest) := by
  have hslash : ¬ CodePoint.is '\\' '[' = true := by decide
  unfold tagAt? tagOnto
  rw [List.dropWhile_cons_of_neg hslash, List.takeWhile_cons_of_neg hslash]
  show (if ('[' : CodePoint) = '[' then _ else none) = _
  rw [if_pos rfl, tagInside?_closed hc hin]
  rfl

/-- A tag is a part of its own. -/
theorem tokensFrom_tag {c : CodePoint} (hc : beginsTag c = true)
    (hin : ∀ d ∈ c :: t, d ≠ '[' ∧ d ≠ ']') :
    tokensFrom offset plain (tagOnto (c :: t) rest) =
      Token.ofPlain plain.reverse ++
        Token.ofInside offset (c :: t) :: tokensFrom (offset + (c :: t).length + 2) [] rest := by
  have htag : tagAt? (tagOnto (c :: t) rest) = some (0, c :: t, rest) := tagAt?_tagOnto hc hin
  unfold tagOnto at htag ⊢
  rw [tokensFrom]
  split
  · next slashes inside rest' h =>
    rw [htag] at h
    cases h
    show Token.ofPlain plain.reverse ++ [Token.ofInside (offset + 0) (c :: t)] ++ _ = _
    simp
  · next h =>
    rw [htag] at h
    cases h

/-- A tag without parameters. -/
theorem Token.ofInside_of_not_mem (h : ∀ c ∈ t, c ≠ '=') :
    Token.ofInside offset t = .tag offset t none := by
  have hdrop : t.dropWhile (fun c : CodePoint => c ≠ '=') = [] := by
    rw [List.dropWhile_eq_nil_iff]
    simpa using h
  unfold Token.ofInside
  rw [hdrop]

/-- The parts of a text in one style. -/
theorem tokens_styled (hstyle : IsTagName style) (hbody : Unmarked body) :
    ∃ offset, tokens (styled style body) =
      .tag 0 style none :: Token.ofPlain body ++ [.tag offset ('/' :: style) none] := by
  obtain ⟨c, name, rfl, hlower⟩ := hstyle.begins
  have hinner : ∀ d ∈ c :: name, d ≠ '[' ∧ d ≠ ']' :=
    fun d hd => ⟨(hstyle.inner d hd).1, (hstyle.inner d hd).2.1⟩
  have hopens : beginsTag c = true := by simp [beginsTag, hlower]
  have hclosing : ∀ d ∈ ('/' : CodePoint) :: c :: name, d ≠ '[' ∧ d ≠ ']' :=
    List.forall_mem_cons.2 ⟨by decide, hinner⟩
  have hbare : ∀ d ∈ ('/' : CodePoint) :: c :: name, d ≠ '=' :=
    List.forall_mem_cons.2 ⟨by decide, fun d hd => (hstyle.inner d hd).2.2⟩
  unfold tokens styled
  rw [tokensFrom_tag hopens hinner, tokensFrom_plain hbody, tokensFrom_tag (by decide) hclosing,
    Token.ofInside_of_not_mem hbare,
    Token.ofInside_of_not_mem fun d hd => hbare d (List.mem_cons_of_mem _ hd), tokensFrom]
  refine ⟨(c :: name).length + 2 + body.length, ?_⟩
  simp [Token.ofPlain]

/-- The tag that a style is closed with closes it. -/
theorem close_style (hstyle : IsTagName style) :
    close [Style.normalize style] offset ('/' :: style) none = .ok [] := by
  obtain ⟨c, name, rfl, -⟩ := hstyle.begins
  unfold close
  simp only [List.drop_succ_cons, List.drop_zero, hstyle.stripped]
  simp

/-- What a plain part shows has no backslash in front of a bracket to leave out. -/
theorem unescape_of_unmarked (ht : Unmarked t) : unescape t = t := by
  induction t with
  | nil => rfl
  | cons c t ih =>
    have hc : c ≠ '\\' := (ht c List.mem_cons_self).2
    have hrest := ih fun d hd => ht d (List.mem_cons_of_mem _ hd)
    cases t with
    | nil => rfl
    | cons d t =>
      rw [unescape]
      simp only [hc, decide_false, Bool.false_and, Bool.false_eq_true, if_false, hrest]

theorem shownWith_ofPlain (hbody : Unmarked body) (openTags : List Text) (rest : List Token) :
    shownWith openTags (Token.ofPlain body ++ rest) =
      (shownWith openTags rest).map (printable body ++ ·) := by
  unfold Token.ofPlain
  split
  · next h =>
    rw [List.isEmpty_iff.1 h, List.nil_append]
    cases shownWith openTags rest <;> rfl
  · rw [List.singleton_append, shownWith, unescape_of_unmarked hbody]
    cases shownWith openTags rest <;> rfl

/-- A text without brackets and backslashes is shown in any style. -/
theorem render_styled (hstyle : IsTagName style) (hbody : Unmarked body) :
    render (styled style body) = .ok (printable body) := by
  obtain ⟨offset, htokens⟩ := tokens_styled hstyle hbody
  have hopening : style.startsWith "/" = false := by
    obtain ⟨c, name, rfl, hlower⟩ := hstyle.begins
    have hc : (('/' : CodePoint) == c) = false := by
      rw [beq_eq_false_iff_ne]
      rintro rfl
      exact absurd hlower (by decide)
    show List.isPrefixOf [('/' : CodePoint)] (c :: name) = false
    simp [List.isPrefixOf, hc]
  have hclosing : Text.startsWith ('/' :: style) "/" = true := by
    show List.isPrefixOf [('/' : CodePoint)] ('/' :: style) = true
    simp [List.isPrefixOf]
  have hlast : shownWith [Style.normalize style] [.tag offset ('/' :: style) none] = .ok [] := by
    rw [shownWith, if_pos hclosing, close_style hstyle]
    rfl
  -- without any bracket the text would be shown as it is, tags included
  have hany : (styled style body).any (CodePoint.is '[') = true :=
    List.any_eq_true.2 ⟨'[', List.mem_cons_self, rfl⟩
  unfold render
  rw [if_pos hany, htokens, List.cons_append, shownWith, if_neg (by simp [hopening]),
    shownWith_ofPlain hbody, hlast]
  simp [Except.map]

end TypeSketch.Markup

namespace TypeSketch

/-- **A text without brackets and backslashes is printed in any style.** -/
theorem Console.markedUp_styled {style body : Text} (hstyle : Markup.IsTagName style)
    (hbody : Markup.Unmarked body) :
    markedUp (Markup.styled style body) =
      .ok (printed (Wrap.lines width .fold (Markup.printable body))) := by
  unfold markedUp
  rw [Markup.render_styled hstyle hbody]

theorem Markup.isTagName_boldBlue : IsTagName "bold blue" where
  begins := ⟨'b', Text.ofString "old blue", rfl, rfl⟩
  inner := by decide
  stripped := by decide

/-- A numeral holds nothing but digits. -/
theorem Markup.unmarked_decimal (n : Nat) : Unmarked (Text.decimal n) := by
  intro c hc
  have hdigit : c.isDigit = true := Text.isDigit_of_mem_decimal c hc
  constructor <;> rintro rfl <;> exact absurd hdigit (by decide)

end TypeSketch
