import TypeSketch.Proofs.Closing
import TypeSketch.Proofs.Failing

/-!
# Texts that are shown as they stand

A text with markup is shown as it stands exactly when nothing in it is markup. Whatever is read as a
tag is left out or loses its backslash, so that what is shown is shorter than what was written.

* `Verbatim`: **nothing in a text is markup.**
* `tokensFrom_untagged`: a text without tags is one plain part.
* `length_tokensFrom_lt`: the parts of a text with a tag are shorter than the text.
* `render_eq_self_iff`: **a text is shown as it stands exactly when nothing in it is markup.**
* `Quiet`: a text that makes no markup with what stands behind it either.
-/

namespace TypeSketch.Markup

variable {t u inside rest plain shown : Text} {c : CodePoint} {offset n : Nat}

/-- No tag stands in a text. -/
def Untagged (t : Text) : Prop :=
  ∀ front inside behind, t = front ++ tagOnto inside behind → ¬ IsInside inside

/-- No backslash in a text stands in front of an opening bracket. -/
def Unescaped (t : Text) : Prop := List.IsChain (fun c d : CodePoint => c = '\\' → d ≠ '[') t

/-- **Nothing in a text is markup**: no tag stands in it and no backslash in front of an opening
bracket, and the console takes all its code points. -/
structure Verbatim (t : Text) : Prop where
  untagged : Untagged t
  unescaped : Unescaped t
  printable : ∀ c ∈ t, isControl c = false

/-! ## Texts without tags -/

theorem Untagged.tail (h : Untagged (c :: t)) : Untagged t := by
  intro front inside behind ht
  exact h (c :: front) inside behind (by rw [ht, List.cons_append])

/-- A text without tags is one plain part. -/
theorem tokensFrom_untagged (h : Untagged t) :
    tokensFrom offset plain t = Token.ofPlain (plain.reverse ++ t) := by
  fun_induction tokensFrom offset plain t with
  | case1 => rw [List.append_nil]
  | case2 offset plain c rest slashes inside rest' htag ih =>
    obtain ⟨hinside, htext⟩ := tagAt?_eq_some htag
    exact absurd hinside (h _ _ _ htext)
  | case3 offset plain c rest htag ih =>
    rw [ih h.tail, List.reverse_cons, List.append_assoc, List.singleton_append]

/-! ## Backslashes in front of brackets -/

theorem length_unescape_le (t : Text) : (unescape t).length ≤ t.length := by
  fun_induction unescape t with
  | case1 => exact Nat.le_refl _
  | case2 => exact Nat.le_refl _
  | case3 c d rest hescape ih => exact Nat.le_succ_of_le ih
  | case4 c d rest hescape ih => exact Nat.succ_le_succ ih

/-- A plain part is shown as it stands when no backslash is left out. -/
theorem unescape_eq_self_iff : unescape t = t ↔ Unescaped t := by
  fun_induction unescape t with
  | case1 => simp [Unescaped]
  | case2 c => simp [Unescaped]
  | case3 c d rest hescape ih =>
    rw [Bool.and_eq_true, decide_eq_true_eq, decide_eq_true_eq] at hescape
    constructor
    · intro h
      have hshorter := length_unescape_le (d :: rest)
      rw [h, List.length_cons] at hshorter
      omega
    · intro h
      exact absurd hescape.2 ((List.isChain_cons_cons.1 h).1 hescape.1)
  | case4 c d rest hescape ih =>
    have hstep : c = '\\' → d ≠ '[' := by simpa using hescape
    rw [List.cons_inj_right, ih]
    constructor
    · exact fun h => List.isChain_cons_cons.2 ⟨hstep, h⟩
    · exact fun h => (List.isChain_cons_cons.1 h).2

/-! ## What tags cost -/

/-- How long what a part shows can be. -/
def Token.most : Token → Nat
  | .plain t => t.length
  | .tag .. => 0

/-- How long what some parts show can be. -/
def Token.mostOf : List Token → Nat
  | [] => 0
  | token :: rest => token.most + mostOf rest

theorem Token.mostOf_append (front back : List Token) :
    mostOf (front ++ back) = mostOf front + mostOf back := by
  induction front with
  | nil => exact (Nat.zero_add _).symm
  | cons token front ih => rw [List.cons_append, mostOf, mostOf, ih, Nat.add_assoc]

theorem Token.mostOf_ofPlain (t : Text) : mostOf (ofPlain t) = t.length := by
  unfold ofPlain
  split
  · next h =>
    rw [List.isEmpty_iff.1 h]
    rfl
  · exact Nat.add_zero _

/-- **A tag shows less than what was written**, whether backslashes make it plain or not. -/
theorem Token.mostOf_ofTag_lt (offset slashes : Nat) (inside : Text) :
    mostOf (ofTag offset slashes inside) < slashes + inside.length + 2 := by
  have hslashes : (Text.times (slashes / 2) '\\').length = slashes / 2 := List.length_replicate
  rw [ofTag, mostOf_append, mostOf_ofPlain, hslashes, mostOf, mostOf]
  split
  · have hplain : (("[" : Text) ++ inside ++ "]").length = inside.length + 2 := by
      rw [List.length_append, List.length_append]
      show 1 + inside.length + 1 = inside.length + 2
      omega
    show slashes / 2 + ((("[" : Text) ++ inside ++ "]").length + 0) < _
    omega
  · have htag : (ofInside (offset + slashes) inside).most = 0 := by
      unfold ofInside
      split <;> rfl
    show slashes / 2 + ((ofInside (offset + slashes) inside).most + 0) < _
    omega

theorem length_of_tagAt? (h : tagAt? t = some (n, inside, rest)) :
    t.length = n + inside.length + 2 + rest.length := by
  obtain ⟨-, rfl⟩ := tagAt?_eq_some h
  rw [List.length_append, Text.times, List.length_replicate, tagOnto, List.length_cons,
    List.length_append, List.length_cons]
  omega

theorem length_tokensFrom_le (offset : Nat) (plain t : Text) :
    Token.mostOf (tokensFrom offset plain t) ≤ plain.length + t.length := by
  fun_induction tokensFrom offset plain t with
  | case1 => rw [Token.mostOf_ofPlain, List.length_reverse, List.length_nil, Nat.add_zero]
  | case2 offset plain c rest slashes inside rest' htag ih =>
    have hlength := length_of_tagAt? htag
    have hless := Token.mostOf_ofTag_lt offset slashes inside
    rw [List.length_nil] at ih
    rw [Token.mostOf_append, Token.mostOf_append, Token.mostOf_ofPlain, List.length_reverse]
    omega
  | case3 offset plain c rest htag ih =>
    rw [List.length_cons] at ih ⊢
    omega

/-- The parts of a text with a tag are shorter than the text. -/
theorem length_tokensFrom_lt (h : ¬ Untagged t) :
    Token.mostOf (tokensFrom offset plain t) < plain.length + t.length := by
  fun_induction tokensFrom offset plain t with
  | case1 =>
    exact absurd (fun front inside behind ht => by simp [tagOnto] at ht) h
  | case2 offset plain c rest slashes inside rest' htag ih =>
    have hlength := length_of_tagAt? htag
    have hless := Token.mostOf_ofTag_lt offset slashes inside
    have hrest := length_tokensFrom_le (offset + slashes + inside.length + 2) [] rest'
    rw [List.length_nil] at hrest
    rw [Token.mostOf_append, Token.mostOf_append, Token.mostOf_ofPlain, List.length_reverse]
    omega
  | case3 offset plain c rest htag ih =>
    have hrest : ¬ Untagged rest := by
      intro hrest
      refine h fun front inside behind ht hinside => ?_
      cases front with
      | nil =>
        -- the tag would stand at the front
        obtain ⟨d, name, rfl, hd⟩ := hinside.begins
        rw [ht, List.nil_append, tagAt?_tagOnto hd hinside.inner] at htag
        cases htag
      | cons d front => exact hrest front inside behind (List.cons.inj ht).2 hinside
    have hshorter := ih hrest
    rw [List.length_cons] at hshorter ⊢
    omega

/-- What some parts show is no longer than they are. -/
theorem length_le_of_shownWith {openTags : List Text} {tokens : List Token}
    (h : shownWith openTags tokens = .ok shown) : shown.length ≤ Token.mostOf tokens := by
  induction tokens generalizing openTags shown with
  | nil =>
    cases h
    exact Nat.le_refl _
  | cons token tokens ih =>
    rw [Token.mostOf]
    cases token with
    | plain t =>
      rw [shownWith] at h
      obtain ⟨behind, hbehind, h⟩ := exists_of_bind_ok h
      cases h
      have hplain : (Markup.printable (unescape t)).length ≤ t.length :=
        Nat.le_trans (List.length_filter_le _ _) (length_unescape_le t)
      have hrest := ih hbehind
      rw [List.length_append]
      exact Nat.add_le_add hplain hrest
    | tag offset name parameters =>
      refine Nat.le_trans ?_ (Nat.le_add_left _ _)
      rw [shownWith] at h
      split at h
      · obtain ⟨openTags', -, h⟩ := exists_of_bind_ok h
        exact ih h
      · exact ih h

/-! ## What is shown as it stands -/

theorem printable_eq_self_iff : Markup.printable t = t ↔ ∀ c ∈ t, isControl c = false := by
  rw [Markup.printable, List.filter_eq_self]
  simp

theorem unescaped_of_not_mem (h : ('[' : CodePoint) ∉ t) : Unescaped t := by
  induction t with
  | nil => exact .nil
  | cons c t ih =>
    rw [List.mem_cons, not_or] at h
    refine List.isChain_cons.2 ⟨fun d hd _ => ?_, ih h.2⟩
    exact ne_of_mem_of_not_mem (List.mem_of_mem_head? hd) h.2

theorem mem_of_not_untagged (h : ¬ Untagged t) : ('[' : CodePoint) ∈ t := by
  by_contra hbracket
  refine h fun front inside behind ht => absurd ?_ hbracket
  rw [ht]
  exact List.mem_append_right _ List.mem_cons_self

theorem any_bracket_iff : t.any (CodePoint.is '[') = true ↔ ('[' : CodePoint) ∈ t := by
  simp [CodePoint.is]

/-- A text without tags is shown but for backslashes and what the console does not take. -/
theorem render_untagged (h : Untagged t) : render t = .ok (printable (unescape t)) := by
  unfold render
  split
  · next hbracket =>
    have hne : t ≠ [] := List.ne_nil_of_mem (any_bracket_iff.1 hbracket)
    rw [tokens, tokensFrom_untagged h, List.reverse_nil, List.nil_append, Token.ofPlain,
      if_neg (by simpa using hne), shownWith]
    exact congrArg Except.ok (List.append_nil _)
  · next hbracket =>
    rw [any_bracket_iff] at hbracket
    rw [unescape_eq_self_iff.2 (unescaped_of_not_mem hbracket)]

/-- What a text with a tag shows is shorter than the text. -/
theorem length_lt_of_render (h : ¬ Untagged t) (hshown : render t = .ok shown) :
    shown.length < t.length := by
  have hbracket : t.any (CodePoint.is '[') = true := any_bracket_iff.2 (mem_of_not_untagged h)
  rw [render, if_pos hbracket] at hshown
  have hless : Token.mostOf (tokensFrom 0 [] t) < 0 + t.length := length_tokensFrom_lt h
  rw [Nat.zero_add] at hless
  exact Nat.lt_of_le_of_lt (length_le_of_shownWith hshown) hless

/-- **A text is shown as it stands exactly when nothing in it is markup.** -/
theorem render_eq_self_iff : render t = .ok t ↔ Verbatim t := by
  constructor
  · intro h
    have htags : Untagged t := by
      by_contra htags
      exact Nat.lt_irrefl _ (length_lt_of_render htags h)
    rw [render_untagged htags] at h
    have hshown : Markup.printable (unescape t) = t := Except.ok.inj h
    -- nothing is left out, as what is shown would be shorter
    have hall : Markup.printable (unescape t) = unescape t := by
      refine List.Sublist.eq_of_length_le List.filter_sublist ?_
      show (unescape t).length ≤ (Markup.printable (unescape t)).length
      rw [hshown]
      exact length_unescape_le t
    have hunescape : unescape t = t := hall.symm.trans hshown
    rw [hunescape] at hall
    exact ⟨htags, unescape_eq_self_iff.1 hunescape, printable_eq_self_iff.1 hall⟩
  · intro h
    rw [render_untagged h.untagged, unescape_eq_self_iff.2 h.unescaped,
      printable_eq_self_iff.2 h.printable]

/-! ## Texts in which names make no markup -/

/-- Two code points that make no markup one after the other. -/
def Apart (c d : CodePoint) : Prop := (c = '[' → beginsTag d = false) ∧ (c = '\\' → d ≠ '[')

/-- **A text that makes no markup**, whatever stands behind it that begins no tag: no bracket in it
begins a tag or follows a backslash, it does not end with one, and the console takes its code
points. -/
structure Quiet (t : Text) : Prop where
  apart : List.IsChain Apart t
  last : t.getLast? ≠ some ('\\' : CodePoint)
  printable : ∀ c ∈ t, isControl c = false

instance : DecidableRel Apart :=
  fun c d => inferInstanceAs (Decidable ((c = '[' → beginsTag d = false) ∧ (c = '\\' → d ≠ '[')))

instance : DecidablePred Quiet := fun t =>
  decidable_of_iff (List.IsChain Apart t ∧ t.getLast? ≠ some ('\\' : CodePoint) ∧
    ∀ c ∈ t, isControl c = false)
    ⟨fun h => ⟨h.1, h.2.1, h.2.2⟩, fun h => ⟨h.apart, h.last, h.printable⟩⟩

/-- Quiet texts one behind the other are quiet when no tag begins where they meet. -/
theorem Quiet.append (ht : Quiet t) (hu : Quiet u)
    (h : t.getLast? ≠ some ('[' : CodePoint) ∨ ∀ c ∈ u.head?, beginsTag c = false) :
    Quiet (t ++ u) where
  apart := by
    refine List.IsChain.append ht.apart hu.apart fun c hc d hd => ⟨?_, ?_⟩
    · rintro rfl
      rcases h with h | h
      · exact absurd hc h
      · exact h d hd
    · rintro rfl
      exact absurd hc ht.last
  last := by
    cases u with
    | nil =>
      rw [List.append_nil]
      exact ht.last
    | cons d u =>
      rw [List.getLast?_append_of_ne_nil _ (List.cons_ne_nil d u)]
      exact hu.last
  printable := by
    intro c hc
    exact (List.mem_append.1 hc).elim (ht.printable c) (hu.printable c)

/-- **Nothing in a quiet text is markup.** -/
theorem Quiet.verbatim (h : Quiet t) : Verbatim t where
  untagged := by
    intro front inside behind ht hinside
    obtain ⟨c, name, rfl, hc⟩ := hinside.begins
    have hchain := h.apart
    rw [ht] at hchain
    have hnext : Apart '[' c := (List.isChain_cons_cons.1 hchain.right_of_append).1
    rw [hnext.1 rfl] at hc
    cases hc
  unescaped := h.apart.imp fun _ _ hcd => hcd.2
  printable := h.printable

end TypeSketch.Markup
