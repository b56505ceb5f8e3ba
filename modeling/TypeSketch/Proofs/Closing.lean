import Mathlib.Data.List.Chain
import TypeSketch.Proofs.Messages

/-!
# Texts that close no tag

Markup fails only where a tag is closed that is not open. A text that no closing tag begins in is
always shown, and so is such a text inside the tags of a style, whatever other tags it holds.

* `ClosesNothing`: **no slash stands behind an opening bracket.**
* `tagAt?_eq_some`: what a text with a tag at its front consists of.
* `isClosing_tokensFrom`: no part of such a text closes a tag.
* `tokensFrom_styled`: inside the tags of a style, at most the last part does.
* `exists_rendered`, `exists_rendered_styled`: both are shown.
-/

namespace TypeSketch.Markup

variable {t u body style inside rest plain : Text} {c : CodePoint} {n offset : Nat}

/-- **No closing tag begins in a text**: no slash stands behind an opening bracket. -/
def ClosesNothing (t : Text) : Prop := List.IsChain (fun c d : CodePoint => c = '[' → d ≠ '/') t

instance : DecidablePred ClosesNothing :=
  fun t => inferInstanceAs (Decidable (List.IsChain (fun c d : CodePoint => c = '[' → d ≠ '/') t))

namespace ClosesNothing

theorem of_append_right (h : ClosesNothing (t ++ u)) : ClosesNothing u :=
  List.IsChain.right_of_append h

theorem of_not_mem_bracket (h : ('[' : CodePoint) ∉ t) : ClosesNothing t := by
  induction t with
  | nil => exact .nil
  | cons c t ih =>
    have hrest : ClosesNothing t := ih fun hin => h (List.mem_cons_of_mem _ hin)
    refine List.isChain_cons.2 ⟨fun d _ hc => ?_, hrest⟩
    exact absurd (hc ▸ List.mem_cons_self) h

theorem append (ht : ClosesNothing t) (hu : ClosesNothing u)
    (h : t.getLast? ≠ some ('[' : CodePoint) ∨ u.head? ≠ some ('/' : CodePoint)) :
    ClosesNothing (t ++ u) := by
  refine List.IsChain.append ht hu fun c hc d hd => ?_
  rintro rfl rfl
  rcases h with h | h
  · exact h hc
  · exact h hd

end ClosesNothing

/-! ## Tags at the front of a text -/

/-- The inside of a tag begins like a tag and holds no bracket. -/
structure IsInside (inside : Text) : Prop where
  begins : ∃ c rest, inside = c :: rest ∧ beginsTag c = true
  inner : ∀ c ∈ inside, c ≠ '[' ∧ c ≠ ']'

/-- What starts with the inside of a tag goes on with a closing bracket. -/
theorem tagInside?_eq_some (h : tagInside? t = some (inside, rest)) :
    IsInside inside ∧ t = inside ++ (']' : CodePoint) :: rest := by
  unfold tagInside? at h
  split at h
  · cases h
  · next c u =>
    dsimp only at h
    split at h
    · next d rest' hdrop =>
      split at h
      · next hbegins =>
        cases h
        rw [Bool.and_eq_true, decide_eq_true_eq] at hbegins
        obtain ⟨hc, rfl⟩ := hbegins
        have hinner : ∀ d ∈ (c :: u).takeWhile fun d : CodePoint => d ≠ '[' && d ≠ ']',
            d ≠ '[' ∧ d ≠ ']' := by
          intro d hd
          simpa using List.mem_takeWhile_imp hd
        have hplain : c ≠ '[' ∧ c ≠ ']' := by
          constructor <;> rintro rfl <;> exact absurd hc (by decide)
        have hfirst : (c ≠ '[' && c ≠ ']') = true := by simpa using hplain
        refine ⟨⟨⟨c, _, List.takeWhile_cons_of_pos hfirst, hc⟩, hinner⟩, ?_⟩
        rw [← hdrop, List.takeWhile_append_dropWhile]
      · cases h
    · cases h

/-- A text with a tag at its front consists of backslashes, the tag and the rest. -/
theorem tagAt?_eq_some (h : tagAt? t = some (n, inside, rest)) :
    IsInside inside ∧ t = Text.times n '\\' ++ tagOnto inside rest := by
  unfold tagAt? at h
  split at h
  · cases h
  · next b behind hdrop =>
    split at h
    · next hb =>
      obtain ⟨⟨inside', rest'⟩, htag, he⟩ := Option.map_eq_some_iff.1 h
      cases he
      obtain ⟨hinside, rfl⟩ := tagInside?_eq_some htag
      have hslashes : t.takeWhile (CodePoint.is '\\') =
          Text.times (t.takeWhile (CodePoint.is '\\')).length '\\' := by
        refine List.eq_replicate_of_mem fun c hc => ?_
        simpa [CodePoint.is] using List.mem_takeWhile_imp hc
      refine ⟨hinside, ?_⟩
      rw [← hslashes, tagOnto, ← hb, ← hdrop, List.takeWhile_append_dropWhile]
    · cases h

/-! ## Parts that close a tag -/

/-- Whether a part of a text closes a tag. -/
def Token.isClosing : Token → Bool
  | .plain _ => false
  | .tag _ name _ => name.startsWith "/"

theorem startsWith_slash_iff : t.startsWith "/" = true ↔ t.head? = some ('/' : CodePoint) := by
  cases t with
  | nil =>
    constructor <;> intro h <;> cases h
  | cons c t =>
    show (('/' : CodePoint) == c && true) = true ↔ some c = some ('/' : CodePoint)
    rw [Bool.and_true, beq_iff_eq, Option.some.injEq, eq_comm]

theorem isClosing_ofPlain : ∀ token ∈ Token.ofPlain t, token.isClosing = false := by
  intro token htoken
  unfold Token.ofPlain at htoken
  split at htoken
  · cases htoken
  · rw [List.mem_singleton.1 htoken]
    rfl

/-- A tag that no slash begins closes nothing. -/
theorem isClosing_ofInside (h : inside.head? ≠ some ('/' : CodePoint)) :
    (Token.ofInside offset inside).isClosing = false := by
  have hname : ∀ name : Text, name <+: inside → name.startsWith "/" = false := by
    rintro name ⟨behind, rfl⟩
    refine Bool.eq_false_iff.2 fun hslash => h ?_
    rw [startsWith_slash_iff] at hslash
    rw [List.head?_append, hslash]
    rfl
  unfold Token.ofInside
  split
  · exact hname inside List.prefix_rfl
  · exact hname _ (List.takeWhile_prefix _)

theorem isClosing_ofTag (h : inside.head? ≠ some ('/' : CodePoint)) :
    ∀ token ∈ Token.ofTag offset n inside, token.isClosing = false := by
  intro token htoken
  unfold Token.ofTag at htoken
  rcases List.mem_append.1 htoken with htoken | htoken
  · exact isClosing_ofPlain token htoken
  · rw [List.mem_singleton.1 htoken]
    split
    · rfl
    · exact isClosing_ofInside h

/-- Behind an opening bracket of a text that closes nothing there is no slash. -/
theorem ClosesNothing.head?_inside (h : ClosesNothing (t ++ tagOnto inside rest))
    (hinside : IsInside inside) : inside.head? ≠ some ('/' : CodePoint) := by
  obtain ⟨c, behind, rfl, -⟩ := hinside.begins
  have hnext := (List.isChain_cons_cons.1 h.of_append_right).1
  intro hslash
  exact hnext rfl (Option.some.inj hslash)

theorem ClosesNothing.behind_tag (h : ClosesNothing (t ++ tagOnto inside rest)) :
    ClosesNothing rest := by
  have hback : t ++ tagOnto inside rest =
      (t ++ ('[' : CodePoint) :: inside ++ [(']' : CodePoint)]) ++ rest := by simp [tagOnto]
  rw [hback] at h
  exact h.of_append_right

/-- **No part of a text that closes nothing closes a tag.** -/
theorem isClosing_tokensFrom (h : ClosesNothing t) :
    ∀ token ∈ tokensFrom offset plain t, token.isClosing = false := by
  fun_induction tokensFrom offset plain t with
  | case1 => exact isClosing_ofPlain
  | case2 offset plain c rest slashes inside rest' htag ih =>
    obtain ⟨hinside, htext⟩ := tagAt?_eq_some htag
    have hclosing : ClosesNothing (Text.times slashes '\\' ++ tagOnto inside rest') := htext ▸ h
    intro token htoken
    simp only [List.mem_append] at htoken
    rcases htoken with (htoken | htoken) | htoken
    · exact isClosing_ofPlain token htoken
    · exact isClosing_ofTag (hclosing.head?_inside hinside) token htoken
    · exact ih hclosing.behind_tag token htoken
  | case3 offset plain c rest htag ih => exact ih (List.IsChain.tail h)

/-! ## Texts inside the tags of a style -/

/-- The tag that closes a style. -/
def closingTag (style : Text) : Text := tagOnto (('/' : CodePoint) :: style) []

/-- A message that is written in one style. -/
theorem eq_styled {opening front back closing : Text} (hopening : opening = tagOnto style front)
    (hclosing : closing = back ++ closingTag style) (middle : Text) :
    opening ++ middle ++ closing = styled style (front ++ middle ++ back) := by
  rw [hopening, hclosing]
  simp [tagOnto, styled, closingTag]

theorem isTagName_boldGreen : IsTagName "bold green" where
  begins := ⟨'b', Text.ofString "old green", rfl, rfl⟩
  inner := by decide
  stripped := by decide

theorem isTagName_boldRed : IsTagName "bold red" where
  begins := ⟨'b', Text.ofString "old red", rfl, rfl⟩
  inner := by decide
  stripped := by decide

theorem closingTag_eq (style : Text) : closingTag style =
    ('[' : CodePoint) :: (('/' : CodePoint) :: style ++ [(']' : CodePoint)]) := rfl

/-- Where a tag ends in front of a closing tag or in it, it ends in front of it. -/
theorem inside_in_front (hinside : ∀ c ∈ inside, c ≠ '[')
    (h : u ++ closingTag style = inside ++ (']' : CodePoint) :: rest) :
    ∃ behind, u = inside ++ (']' : CodePoint) :: behind ∧ rest = behind ++ closingTag style := by
  have hbracket : ∀ back : Text, closingTag style ≠ (']' : CodePoint) :: back := by
    intro back hback
    exact absurd (List.cons.inj hback).1 (by decide)
  -- the inside of the tag reaches into the closing tag, or it ends in front of that
  rcases List.append_eq_append_iff.1 h with ⟨between, rfl, htag⟩ | ⟨between, rfl, htag⟩
  · cases between with
    | nil => exact absurd htag (hbracket _)
    | cons c between =>
      rw [closingTag_eq] at htag
      have hc := (List.cons.inj htag).1.symm
      exact absurd hc (hinside c (List.mem_append_right _ List.mem_cons_self))
  · rcases List.cons_eq_append_iff.1 htag with ⟨rfl, htag⟩ | ⟨behind, rfl, rfl⟩
    · exact absurd htag.symm (hbracket _)
    · exact ⟨behind, rfl, rfl⟩

theorem eq_of_tagOnto_eq (hstyle : ∀ c ∈ style, c ≠ ']')
    (h : closingTag style = tagOnto inside rest) :
    inside = ('/' : CodePoint) :: style ∧ rest = [] := by
  have hslash : ∀ c ∈ ('/' : CodePoint) :: style, c ≠ ']' :=
    List.forall_mem_cons.2 ⟨by decide, hstyle⟩
  rw [closingTag_eq] at h
  rcases List.append_eq_append_iff.1 (List.cons.inj h).2 with
    ⟨between, hinside, hrest⟩ | ⟨between, hname, hrest⟩
  · cases between with
    | nil =>
      rw [List.append_nil] at hinside
      exact ⟨hinside, (List.cons.inj hrest).2.symm⟩
    | cons c between =>
      have hempty := (List.cons.inj hrest).2
      exact absurd hempty.symm (by simp)
  · cases between with
    | nil =>
      rw [List.append_nil] at hname
      exact ⟨hname.symm, (List.cons.inj hrest).2⟩
    | cons c between =>
      have hc := (List.cons.inj hrest).1.symm
      exact absurd hc (hslash c (hname ▸ List.mem_append_right _ List.mem_cons_self))

/-- A tag at the front of a text and the closing tag behind it is in the text, or it is the closing
tag itself, behind nothing but backslashes. -/
theorem tag_in_front (hinside : ∀ c ∈ inside, c ≠ '[') (hstyle : ∀ c ∈ style, c ≠ ']')
    (h : body ++ closingTag style = Text.times n '\\' ++ tagOnto inside rest) :
    (∃ behind, body = Text.times n '\\' ++ tagOnto inside behind ∧
      rest = behind ++ closingTag style) ∨
      inside = ('/' : CodePoint) :: style ∧ rest = [] := by
  -- the text ends among the backslashes, or it goes on into the tag
  rcases List.append_eq_append_iff.1 h with ⟨between, hslashes, htag⟩ | ⟨between, rfl, htag⟩
  · cases between with
    | nil => exact .inr (eq_of_tagOnto_eq hstyle htag)
    | cons c between =>
      rw [closingTag_eq] at htag
      have hc : c ∈ Text.times n '\\' := by
        rw [hslashes]
        exact List.mem_append_right _ List.mem_cons_self
      rw [← (List.cons.inj htag).1] at hc
      exact absurd (List.eq_of_mem_replicate hc) (by decide)
  · cases between with
    | nil => exact .inr (eq_of_tagOnto_eq hstyle htag.symm)
    | cons c between =>
      obtain ⟨rfl, hbehind⟩ := List.cons.inj htag
      obtain ⟨behind, rfl, rfl⟩ := inside_in_front hinside hbehind.symm
      exact .inl ⟨behind, rfl, rfl⟩

/-- Some parts of a text, of which at most the last closes a tag, which is that of a style. -/
def ClosesLast (style : Text) (tokens : List Token) : Prop :=
  ∃ front last, tokens = front ++ last ∧ (∀ token ∈ front, token.isClosing = false) ∧
    (last = [] ∨ ∃ offset, last = [.tag offset (('/' : CodePoint) :: style) none])

theorem ClosesLast.prepend {tokens front : List Token} (h : ClosesLast style tokens)
    (hfront : ∀ token ∈ front, token.isClosing = false) : ClosesLast style (front ++ tokens) := by
  obtain ⟨middle, last, rfl, hmiddle, hlast⟩ := h
  refine ⟨front ++ middle, last, (List.append_assoc ..).symm, fun token htoken => ?_, hlast⟩
  exact (List.mem_append.1 htoken).elim (hfront token) (hmiddle token)

theorem closesLast_closingTag (hstyle : IsTagName style) (offset slashes : Nat) :
    ClosesLast style (Token.ofTag offset slashes (('/' : CodePoint) :: style)) := by
  have hbare : ∀ c ∈ ('/' : CodePoint) :: style, c ≠ '=' :=
    List.forall_mem_cons.2 ⟨by decide, fun c hc => (hstyle.inner c hc).2.2⟩
  unfold Token.ofTag
  refine ClosesLast.prepend ?_ isClosing_ofPlain
  split
  · exact ⟨[_], [], rfl, by simp [Token.isClosing], .inl rfl⟩
  · rw [Token.ofInside_of_not_mem hbare]
    exact ⟨[], [_], rfl, nofun, .inr ⟨_, rfl⟩⟩

/-- **Inside the tags of a style, at most the last part of a text closes a tag**, when nothing in
the text does. -/
theorem tokensFrom_styled (hstyle : IsTagName style) (h : ClosesNothing body) (offset : Nat)
    (plain : Text) :
    ClosesLast style (tokensFrom offset plain (body ++ closingTag style)) := by
  have hname : ∀ c ∈ style, c ≠ ']' := fun c hc => (hstyle.inner c hc).2.1
  have hinner : ∀ c ∈ ('/' : CodePoint) :: style, c ≠ '[' ∧ c ≠ ']' :=
    List.forall_mem_cons.2 ⟨by decide, fun c hc => ⟨(hstyle.inner c hc).1, hname c hc⟩⟩
  -- a step takes a code point or a tag off the front of the text
  induction hlength : body.length using Nat.strongRecOn generalizing body offset plain with
  | ind length ih =>
    obtain ⟨c, more, hmore⟩ : ∃ c more, body ++ closingTag style = c :: more :=
      List.exists_cons_of_ne_nil (List.append_ne_nil_of_right_ne_nil _ (List.cons_ne_nil _ _))
    rw [hmore, tokensFrom]
    split
    · next slashes inside rest htag =>
      obtain ⟨hinside, htext⟩ := tagAt?_eq_some htag
      rw [← hmore] at htext
      rcases tag_in_front (fun c hc => (hinside.inner c hc).1) hname htext with
        ⟨behind, rfl, rfl⟩ | ⟨rfl, rfl⟩
      · have hshorter : behind.length < length := by
          rw [← hlength]
          simp [tagOnto]
          omega
        refine (ih _ hshorter h.behind_tag _ _ rfl).prepend fun token htoken => ?_
        rcases List.mem_append.1 htoken with htoken | htoken
        · exact isClosing_ofPlain token htoken
        · exact isClosing_ofTag (h.head?_inside hinside) token htoken
      · have hend : ∀ offset, tokensFrom offset [] [] = [] := by
          intro offset
          rw [tokensFrom]
          rfl
        rw [hend, List.append_nil]
        exact (closesLast_closingTag hstyle _ _).prepend isClosing_ofPlain
    · next hnone =>
      cases body with
      | nil =>
        rw [← hmore] at hnone
        rw [List.nil_append, closingTag, tagAt?_tagOnto (by decide) hinner] at hnone
        cases hnone
      | cons d body =>
        obtain ⟨rfl, rfl⟩ := List.cons.inj hmore
        have hshorter : body.length < length := by
          rw [← hlength]
          exact Nat.lt_succ_self _
        exact ih _ hshorter (List.IsChain.tail h) _ _ rfl

/-! ## What is shown -/

/-- Parts that close nothing only open styles. -/
theorem shownWith_append {front : List Token} (h : ∀ token ∈ front, token.isClosing = false)
    (openTags : List Text) (last : List Token) :
    ∃ opened shown, shownWith openTags (front ++ last) =
      (shownWith (opened ++ openTags) last).map (shown ++ ·) := by
  induction front generalizing openTags with
  | nil =>
    refine ⟨[], [], ?_⟩
    rw [List.nil_append, List.nil_append]
    cases shownWith openTags last <;> rfl
  | cons token front ih =>
    rw [List.forall_mem_cons] at h
    cases token with
    | plain t =>
      obtain ⟨opened, shown, hshown⟩ := ih h.2 openTags
      refine ⟨opened, printable (unescape t) ++ shown, ?_⟩
      rw [List.cons_append, shownWith, hshown]
      cases shownWith (opened ++ openTags) last with
      | error m => rfl
      | ok behind =>
        show Except.ok (printable (unescape t) ++ (shown ++ behind)) =
          Except.ok (printable (unescape t) ++ shown ++ behind)
        rw [List.append_assoc]
    | tag offset name parameters =>
      obtain ⟨opened, shown, hshown⟩ := ih h.2 (Style.normalize name :: openTags)
      refine ⟨opened ++ [Style.normalize name], shown, ?_⟩
      have hopens : name.startsWith "/" = false := h.1
      rw [List.cons_append, shownWith, hopens, if_neg Bool.false_ne_true, hshown,
        List.append_assoc, List.singleton_append]

/-- **A text that closes nothing is shown.** -/
theorem exists_rendered (h : ClosesNothing t) : ∃ shown, render t = .ok shown := by
  unfold render
  split
  · obtain ⟨opened, shown, hshown⟩ := shownWith_append (isClosing_tokensFrom h) [] []
    rw [List.append_nil] at hshown
    exact ⟨_, hshown⟩
  · exact ⟨_, rfl⟩

/-- The tag that a style is closed with is shown while the style is open. -/
theorem shownWith_closingTag (hstyle : IsTagName style) {openTags : List Text}
    (hopen : Style.normalize style ∈ openTags) :
    shownWith openTags [.tag offset (('/' : CodePoint) :: style) none] = .ok [] := by
  obtain ⟨c, name, rfl, -⟩ := hstyle.begins
  have hslash : Text.startsWith (('/' : CodePoint) :: c :: name) "/" = true :=
    startsWith_slash_iff.2 rfl
  have hclose : close openTags offset (('/' : CodePoint) :: c :: name) none =
      .ok (openTags.erase (Style.normalize (c :: name))) := by
    unfold close
    simp only [List.drop_succ_cons, List.drop_zero, hstyle.stripped, List.isEmpty_cons,
      Bool.false_eq_true, if_false, List.contains_iff_mem.2 hopen, if_true]
  rw [shownWith, if_pos hslash, hclose]
  rfl

/-- **A text that closes nothing is shown in any style.** -/
theorem exists_rendered_styled (hstyle : IsTagName style) (h : ClosesNothing body) :
    ∃ shown, render (styled style body) = .ok shown := by
  obtain ⟨c, name, hname, hlower⟩ := hstyle.begins
  have hbegins : beginsTag c = true := by simp [beginsTag, hlower]
  have hinner : ∀ d ∈ c :: name, d ≠ '[' ∧ d ≠ ']' := by
    intro d hd
    have hd := hstyle.inner d (hname ▸ hd)
    exact ⟨hd.1, hd.2.1⟩
  have hopens : style.startsWith "/" = false := by
    refine Bool.eq_false_iff.2 fun hslash => ?_
    rw [startsWith_slash_iff, hname] at hslash
    have hc := Option.some.inj hslash
    rw [hc] at hlower
    exact absurd hlower (by decide)
  have htokens : tokens (styled style body) =
      .tag 0 style none :: tokensFrom (style.length + 2) [] (body ++ closingTag style) := by
    unfold tokens styled
    rw [hname, tokensFrom_tag hbegins hinner, ← hname,
      Token.ofInside_of_not_mem fun d hd => (hstyle.inner d hd).2.2, Nat.zero_add]
    rfl
  obtain ⟨front, last, hparts, hfront, hlast⟩ :=
    tokensFrom_styled hstyle h (style.length + 2) []
  obtain ⟨opened, shown, hshown⟩ := shownWith_append hfront [Style.normalize style] last
  have hbehind : shownWith (opened ++ [Style.normalize style]) last = .ok [] := by
    rcases hlast with rfl | ⟨offset, rfl⟩
    · rfl
    · exact shownWith_closingTag hstyle (List.mem_append_right _ List.mem_cons_self)
  have hany : (styled style body).any (CodePoint.is '[') = true :=
    List.any_eq_true.2 ⟨'[', List.mem_cons_self, rfl⟩
  refine ⟨shown ++ [], ?_⟩
  rw [render, if_pos hany, htokens, shownWith, hopens, if_neg Bool.false_ne_true, hparts, hshown,
    hbehind]
  rfl

end TypeSketch.Markup

namespace TypeSketch.Console

variable {style body : Text}

/-- A text that closes nothing is printed in any style. -/
theorem exists_markedUp (hstyle : Markup.IsTagName style) (h : Markup.ClosesNothing body) :
    ∃ lines, markedUp (Markup.styled style body) = .ok lines := by
  obtain ⟨shown, hshown⟩ := Markup.exists_rendered_styled hstyle h
  refine ⟨printed (Wrap.lines width .fold shown), ?_⟩
  unfold markedUp
  rw [hshown]

/-- All of some steps succeed when each of them does. -/
theorem exists_mapM {α β ε : Type} {f : α → Except ε β} {l : List α}
    (h : ∀ a ∈ l, ∃ b, f a = .ok b) : ∃ bs, l.mapM f = .ok bs := by
  induction l with
  | nil => exact ⟨[], rfl⟩
  | cons a l ih =>
    rw [List.forall_mem_cons] at h
    obtain ⟨b, hb⟩ := h.1
    obtain ⟨bs, hbs⟩ := ih h.2
    refine ⟨b :: bs, ?_⟩
    rw [List.mapM_cons, hb, hbs]
    rfl

/-- A table is printed when no cell of it closes anything. -/
theorem exists_table {t : Table}
    (h : ∀ c ∈ t.columns, ∀ cell ∈ c.cells, Markup.ClosesNothing cell) :
    ∃ lines, table t = .ok lines := by
  have hcolumns : ∃ columns, (t.columns.mapM fun c => do
      let cells ← c.cells.mapM rendered
      pure { c with cells }) = .ok columns := by
    refine exists_mapM fun c hc => ?_
    obtain ⟨cells, hcells⟩ : ∃ cells, c.cells.mapM rendered = .ok cells := by
      refine exists_mapM fun cell hcell => ?_
      obtain ⟨shown, hshown⟩ := Markup.exists_rendered (h c hc cell hcell)
      refine ⟨shown, ?_⟩
      unfold rendered
      rw [hshown]
    rw [hcells]
    exact ⟨_, rfl⟩
  obtain ⟨columns, hcolumns⟩ := hcolumns
  unfold table
  rw [hcolumns]
  exact ⟨_, rfl⟩

end TypeSketch.Console
