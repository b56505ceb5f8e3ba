import TypeSketch.Proofs.Determined
import TypeSketch.Proofs.Writable

/-!
# Pieces of text

A written list is cut into its pieces from the front. Each piece determines what it was written for
and where it ends, so the whole text determines the list.

* `Pieces`: pieces of text that can be cut off one after another.
* `Pieces.append_inj`: **a row of such pieces determines what they were written for.**
* `TypeScript.propertyKey_append_inj`: a written key is told from what follows it.
-/

namespace TypeSketch

/-! ## Cutting texts -/

namespace Text

variable {a b x y : Text} {c : CodePoint}

/-- A run of a class of code points is cut off where something else follows. -/
theorem append_inj_of_class {p : CodePoint → Bool} (ha : ∀ c ∈ a, p c = true)
    (hb : ∀ c ∈ b, p c = true) (hx : ∀ c ∈ x.head?, p c = false) (hy : ∀ c ∈ y.head?, p c = false)
    (h : a ++ x = b ++ y) : a = b ∧ x = y := by
  have hcut : ∀ a x : Text, (∀ c ∈ a, p c = true) → (∀ c ∈ x.head?, p c = false) →
      (a ++ x).takeWhile p = a := by
    intro a x ha hx
    rw [List.takeWhile_append_of_pos ha]
    cases x with
    | nil => exact List.append_nil a
    | cons c x => rw [List.takeWhile_cons_of_neg (by simp [hx c rfl]), List.append_nil]
  obtain rfl : a = b := by rw [← hcut a x ha hx, h, hcut b y hb hy]
  exact ⟨rfl, List.append_cancel_left h⟩

/-- A text is cut off at a code point that does not occur in it. -/
theorem append_inj_of_head? (ha : c ∉ a) (hb : c ∉ b) (hx : x.head? = some c)
    (hy : y.head? = some c) (h : a ++ x = b ++ y) : a = b ∧ x = y := by
  refine append_inj_of_class (p := fun d => d ≠ c) ?_ ?_ ?_ ?_ h
  · exact fun d hd => decide_eq_true fun e => ha (e ▸ hd)
  · exact fun d hd => decide_eq_true fun e => hb (e ▸ hd)
  · rw [hx]
    rintro d ⟨⟩
    simp
  · rw [hy]
    rintro d ⟨⟩
    simp

theorem join_cons (sep t : Text) (ts : List Text) :
    join sep (t :: ts) = t ++ ts.flatMap (sep ++ ·) := by
  induction ts generalizing t with
  | nil => exact (List.append_nil t).symm
  | cons u ts ih =>
    rw [join, ih, List.flatMap_cons, List.append_assoc, List.append_assoc]
    exact List.cons_ne_nil u ts

/-- Lines between a first and a last one. -/
theorem join_lines {α : Type} (sep first last : Text) (p : α → Text) (as : List α) :
    join sep (first :: as.map p ++ [last]) =
      first ++ (as.flatMap (fun a => sep ++ p a) ++ (sep ++ last)) := by
  rw [List.cons_append, join_cons, List.flatMap_append, List.flatMap_map, List.flatMap_singleton]

end Text

/-- **Pieces of text that can be cut off one after another.** A piece in front of what can come next
determines what is viewed of the thing it was written for; next can come another piece, or an end,
which no piece looks like. -/
structure Pieces {α β : Type} (p : α → Text) (view : α → β) (ok : α → Prop)
    (Next End : Text → Prop) : Prop where
  cut : ∀ a b x y, ok a → ok b → Next x → Next y → p a ++ x = p b ++ y → view a = view b ∧ x = y
  next : ∀ a x, Next (p a ++ x)
  next_of_end : ∀ x, End x → Next x
  not_end : ∀ a x, ¬ End (p a ++ x)

/-- **A row of pieces determines what they were written for**, and what follows it. -/
theorem Pieces.append_inj {α β : Type} {p : α → Text} {view : α → β} {ok : α → Prop}
    {Next End : Text → Prop} (h : Pieces p view ok Next End) {as bs : List α} {x y : Text}
    (ha : ∀ a ∈ as, ok a) (hb : ∀ b ∈ bs, ok b) (hx : End x) (hy : End y)
    (he : as.flatMap p ++ x = bs.flatMap p ++ y) : as.map view = bs.map view ∧ x = y := by
  have hnext : ∀ (cs : List α) (z : Text), End z → Next (cs.flatMap p ++ z) := by
    intro cs z hz
    cases cs with
    | nil => exact h.next_of_end z hz
    | cons c cs =>
      rw [List.flatMap_cons, List.append_assoc]
      exact h.next c _
  induction as generalizing bs with
  | nil =>
    cases bs with
    | nil => exact ⟨rfl, he⟩
    | cons b bs =>
      rw [List.flatMap_nil, List.nil_append, List.flatMap_cons, List.append_assoc] at he
      exact absurd (he ▸ hx) (h.not_end b _)
  | cons a as ih =>
    cases bs with
    | nil =>
      rw [List.flatMap_nil, List.nil_append, List.flatMap_cons, List.append_assoc] at he
      exact absurd (he ▸ hy) (h.not_end a _)
    | cons b bs =>
      rw [List.forall_mem_cons] at ha hb
      rw [List.flatMap_cons, List.flatMap_cons, List.append_assoc, List.append_assoc] at he
      obtain ⟨hview, he⟩ := h.cut a b _ _ ha.1 hb.1 (hnext as x hx) (hnext bs y hy) he
      obtain ⟨hviews, hxy⟩ := ih ha.2 hb.2 he
      exact ⟨List.cons_eq_cons.2 ⟨hview, hviews⟩, hxy⟩

/-! ## Keys -/

namespace TypeScript

variable {k l x y : Text}

/-- What can follow a key: a colon or a question mark, a bracket, or a line that is indented. -/
inductive FollowsKey : Text → Prop
  | colon (x : Text) : FollowsKey (':' :: x)
  | question (x : Text) : FollowsKey ('?' :: x)
  | bracket (x : Text) : FollowsKey (']' :: x)
  | line (x : Text) : FollowsKey ('\n' :: ' ' :: x)

theorem FollowsKey.head?_not_continuesName (h : FollowsKey x) :
    ∀ c ∈ x.head?, continuesName c = false := by
  cases h <;> rintro c ⟨⟩ <;> decide

theorem FollowsKey.ne_newline_cons (hx : FollowsKey x) (hy : FollowsKey y) :
    x ≠ ('\n' : CodePoint) :: y := by
  rintro rfl
  cases hx
  cases hy

/-- A bare key is a plain name, or one with a line feed behind it. -/
theorem isBareKey_iff : isBareKey k = true ↔
    ∃ name, isPlainName name = true ∧ (k = name ∨ k = name ++ [('\n' : CodePoint)]) := by
  rw [isBareKey, Bool.or_eq_true, Bool.and_eq_true, decide_eq_true_eq]
  constructor
  · rintro (h | ⟨hlast, h⟩)
    · exact ⟨k, h, .inl rfl⟩
    · exact ⟨k.dropLast, h, .inr (List.dropLast_append_getLast? _ hlast).symm⟩
  · rintro ⟨name, h, rfl | rfl⟩
    · exact .inl h
    · exact .inr ⟨List.getLast?_concat, by rwa [List.dropLast_concat]⟩

/-- Two bare keys are told from what follows them. -/
theorem bareKey_append_inj (hk : isBareKey k = true) (hl : isBareKey l = true) (hx : FollowsKey x)
    (hy : FollowsKey y) (h : k ++ x = l ++ y) : k = l ∧ x = y := by
  obtain ⟨a, ha, hka⟩ := isBareKey_iff.1 hk
  obtain ⟨b, hb, hlb⟩ := isBareKey_iff.1 hl
  have hline : ∀ z : Text, ∀ c ∈ (('\n' : CodePoint) :: z).head?, continuesName c = false := by
    rintro z c ⟨⟩
    decide
  have cut {z w : Text} := Text.append_inj_of_class (x := z) (y := w)
    (continuesName_of_isPlainName ha) (continuesName_of_isPlainName hb)
  rcases hka with rfl | rfl
  · rcases hlb with rfl | rfl
    · exact cut hx.head?_not_continuesName hy.head?_not_continuesName h
    · rw [List.append_assoc] at h
      exact absurd (cut hx.head?_not_continuesName (hline y) h).2 (hx.ne_newline_cons hy)
  · rcases hlb with rfl | rfl
    · rw [List.append_assoc] at h
      exact absurd (cut (hline x) hy.head?_not_continuesName h).2.symm (hy.ne_newline_cons hx)
    · rw [List.append_assoc, List.append_assoc] at h
      obtain ⟨rfl, hxy⟩ := cut (hline x) (hline y) h
      exact ⟨rfl, (List.cons.inj hxy).2⟩

theorem bareKey_append_ne_quote (hk : isBareKey k = true) : k ++ x ≠ Json.quote l ++ y := by
  obtain ⟨name, hname, hkey⟩ := isBareKey_iff.1 hk
  cases name with
  | nil => cases hname
  | cons c name =>
    rw [isPlainName, Bool.and_eq_true] at hname
    rw [Json.quote_append]
    intro h
    obtain rfl : c = '"' := by rcases hkey with rfl | rfl <;> exact (List.cons.inj h).1
    exact absurd hname.1 (by decide)

/-- **A written key is told from what follows it.** -/
theorem propertyKey_append_inj (hk : k.IsWhole) (hl : l.IsWhole) (hx : FollowsKey x)
    (hy : FollowsKey y) (h : propertyKey k ++ x = propertyKey l ++ y) : k = l ∧ x = y := by
  rw [propertyKey, propertyKey] at h
  by_cases hbk : isBareKey k = true
  · by_cases hbl : isBareKey l = true
    · rw [if_pos hbk, if_pos hbl] at h
      exact bareKey_append_inj hbk hbl hx hy h
    · rw [if_pos hbk, if_neg hbl] at h
      exact absurd h (bareKey_append_ne_quote hbk)
  · by_cases hbl : isBareKey l = true
    · rw [if_neg hbk, if_pos hbl] at h
      exact absurd h.symm (bareKey_append_ne_quote hbl)
    · rw [if_neg hbk, if_neg hbl] at h
      exact Json.quote_append_inj hk hl h

theorem head?_propertyKey (k x : Text) : ∃ c, (propertyKey k ++ x).head? = some c ∧
    (startsName c = true ∨ c = '"') := by
  rw [propertyKey]
  by_cases hbk : isBareKey k = true
  · obtain ⟨name, hname, hkey⟩ := isBareKey_iff.1 hbk
    rw [if_pos hbk]
    cases name with
    | nil => cases hname
    | cons c name =>
      rw [isPlainName, Bool.and_eq_true] at hname
      exact ⟨c, by rcases hkey with rfl | rfl <;> rfl, .inl hname.1⟩
  · rw [if_neg hbk, Json.quote_append]
    exact ⟨'"', rfl, .inr rfl⟩

end TypeScript

end TypeSketch
