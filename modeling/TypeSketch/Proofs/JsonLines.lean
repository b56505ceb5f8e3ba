import TypeSketch.Proofs.Delivery
import TypeSketch.Proofs.RoundTrip
import TypeSketch.Samples.Lines

/-!
# JSON Lines read back

A file with one sample on each line is read line by line. It does not matter how its lines end, and
blank lines between the samples are left out.

* `feedText`: the samples of a text.
* `feed_utf8`: the samples of a file are those of its text.
* `feedText_line`: **the first line is read on its own, whatever follows.**
* `IsWhole.feedText_append`: what whole lines deliver does not depend on what follows.
* `Spells`: a text that holds samples one a line, with blank lines in between.
* `feed_of_spells`: **the samples that a file spells are read from it.**
-/

namespace TypeSketch.Lines

variable {line ending t u : Text} {v : Value} {vs : List Value}

/-- What ends a line. -/
def IsEnding (ending : Text) : Prop := ending = "\n" ∨ ending = "\r" ∨ ending = "\r\n"

/-- A text without the end of a line. -/
def IsLine (line : Text) : Prop := ∀ c ∈ line, c ≠ '\n' ∧ c ≠ '\r'

instance : Decidable (IsLine line) :=
  inferInstanceAs (Decidable (∀ c ∈ line, c ≠ '\n' ∧ c ≠ '\r'))

/-- The lines of a text whose lines end with line feeds, the last one if there is something in it.
-/
def linesOf (t : Text) : List Text :=
  let (lines, last) := cut [] t
  if last.isEmpty then lines else lines ++ [last]

/-- The samples of a text. -/
def feedText (t : Text) : Feed := feedOf none (linesOf (unify t))

/-- The samples of a file are those of its text. -/
theorem feed_utf8 (ht : ∀ c ∈ t, c.isSurrogate = false) : feed t.utf8 = feedText t := by
  unfold feed ofBytes
  rw [Utf8.decodeBlocks_utf8 (by decide) ht]
  rfl

/-! ## Lines -/

theorem cut_line (hline : ∀ c ∈ line, c ≠ '\n') (begun t : Text) :
    cut begun (line ++ ('\n' : CodePoint) :: t) =
      ((begun.reverse ++ line ++ ("\n" : Text)) :: (cut [] t).1, (cut [] t).2) := by
  induction line generalizing begun with
  | nil =>
    rw [List.nil_append, cut, if_pos rfl, List.reverse_cons, List.append_nil]
    rfl
  | cons c line ih =>
    rw [List.forall_mem_cons] at hline
    rw [List.cons_append, cut, if_neg hline.1, ih hline.2, List.reverse_cons]
    simp only [List.append_assoc, List.cons_append, List.nil_append]

theorem cut_last (hline : ∀ c ∈ line, c ≠ '\n') (begun : Text) :
    cut begun line = ([], begun.reverse ++ line) := by
  induction line generalizing begun with
  | nil => rw [cut, List.append_nil]
  | cons c line ih =>
    rw [List.forall_mem_cons] at hline
    rw [cut, if_neg hline.1, ih hline.2, List.reverse_cons, List.append_assoc,
      List.singleton_append]

theorem linesOf_line (hline : ∀ c ∈ line, c ≠ '\n') (t : Text) :
    linesOf (line ++ ('\n' : CodePoint) :: t) = (line ++ ("\n" : Text)) :: linesOf t := by
  unfold linesOf
  rw [cut_line hline]
  simp only [List.reverse_nil, List.nil_append]
  split <;> rfl

theorem linesOf_last (hline : ∀ c ∈ line, c ≠ '\n') :
    linesOf line = if line.isEmpty then [] else [line] := by
  unfold linesOf
  rw [cut_last hline]
  rfl

theorem unifyAfter_line (hline : IsLine line) (t : Text) :
    unifyAfter false (line ++ t) = line ++ unifyAfter false t := by
  induction line with
  | nil => rfl
  | cons c line ih =>
    obtain ⟨⟨hfeed, hreturn⟩, hline⟩ := List.forall_mem_cons.1 hline
    rw [List.cons_append, unifyAfter, if_neg hreturn, if_neg (by simp), ih hline]
    rfl

theorem unify_line (hline : IsLine line) (hending : IsEnding ending) (t : Text) :
    ∃ returned, unify (line ++ (ending ++ t)) =
      line ++ ('\n' : CodePoint) :: unifyAfter returned t := by
  unfold unify
  rw [unifyAfter_line hline]
  rcases hending with rfl | rfl | rfl
  · exact ⟨false, rfl⟩
  · exact ⟨true, rfl⟩
  · exact ⟨false, rfl⟩

/-! ## Samples -/

theorem feedOf_cons (line : Text) (lines : List Text) :
    feedOf none (line :: lines) = feedOf none [line] ++ feedOf none lines := by
  by_cases hblank : line.isBlank = true
  · simp only [feedOf, if_pos hblank]
    rfl
  · simp only [feedOf, if_neg hblank]
    cases Json.decode .lenient line with
    | ok v => rfl
    | error m => rfl

/-- A blank line delivers nothing. -/
theorem feedOf_blank (hblank : line.isBlank = true) : feedOf none [line] = {} := if_pos hblank

theorem isBlank_append_newline (hblank : line.isBlank = true) :
    Text.isBlank (line ++ ("\n" : Text)) = true := by
  rw [Text.isBlank, List.all_append, Bool.and_eq_true]
  exact ⟨hblank, by decide⟩

/-- A line feed behind a carriage return does not matter: it would end a blank line. -/
theorem feedOf_unifyAfter (returned : Bool) (t : Text) :
    feedOf none (linesOf (unifyAfter returned t)) = feedText t := by
  cases returned with
  | false => rfl
  | true =>
    cases t with
    | nil => rfl
    | cons c t =>
      -- a line feed is left out on one side and ends an empty line on the other
      by_cases hfeed : c = '\n'
      · have hnone : ∀ c ∈ ([] : Text), c ≠ '\n' := nofun
        have hblank : linesOf (('\n' : CodePoint) :: unifyAfter false t) =
            ("\n" : Text) :: linesOf (unifyAfter false t) := linesOf_line hnone _
        subst hfeed
        show feedOf none (linesOf (unifyAfter false t)) =
          feedOf none (linesOf (('\n' : CodePoint) :: unifyAfter false t))
        rw [hblank, feedOf_cons, feedOf_blank (by decide)]
        rfl
      · unfold feedText unify unifyAfter
        simp only [hfeed, decide_false, Bool.false_and]

/-- **The first line is read on its own, whatever follows.** -/
theorem feedText_line (hline : IsLine line) (hending : IsEnding ending) (t : Text) :
    feedText (line ++ (ending ++ t)) = feedOf none [line ++ ("\n" : Text)] ++ feedText t := by
  obtain ⟨returned, hunify⟩ := unify_line hline hending t
  rw [feedText, hunify, linesOf_line fun c hc => (hline c hc).1, feedOf_cons, feedOf_unifyAfter]

/-- A text of whole lines, each with its end. -/
inductive IsWhole : Text → Prop where
  | nil : IsWhole []
  | line {line ending t : Text} (hline : IsLine line) (hending : IsEnding ending) (h : IsWhole t) :
    IsWhole (line ++ (ending ++ t))

/-- **What whole lines deliver does not depend on what follows**, which is looked at only behind
them. -/
theorem IsWhole.feedText_append (h : IsWhole t) (u : Text) :
    feedText (t ++ u) = feedText t ++ feedText u := by
  induction h with
  | nil => rfl
  | line hline hending _ ih =>
    rw [List.append_assoc, List.append_assoc, feedText_line hline hending,
      feedText_line hline hending, ih, Feed.append_assoc]

/-! ## Written samples -/

/-- **A text that holds samples one a line**, with blank lines in between. The last line need not be
ended. -/
inductive Spells : List Value → Text → Prop where
  | nil {line : Text} (hline : IsLine line) (hblank : line.isBlank = true) : Spells [] line
  | last (v : Value) : Spells [v] (Json.compact v)
  | blank {line ending t : Text} {vs : List Value} (hline : IsLine line)
    (hblank : line.isBlank = true) (hending : IsEnding ending) (h : Spells vs t) :
    Spells vs (line ++ (ending ++ t))
  | sample (v : Value) {ending t : Text} {vs : List Value} (hending : IsEnding ending)
    (h : Spells vs t) : Spells (v :: vs) (Json.compact v ++ (ending ++ t))

/-- Whether a line can hold a value. -/
def Fits (v : Value) : Prop := v.Portable ∧ Json.HasRoom .lenient 0 v.nesting

theorem isLine_compact (hv : v.Portable) : IsLine (Json.compact v) := by
  intro c hc
  have hprintable := Json.printable_compact hv c hc
  constructor <;> rintro rfl <;> exact absurd hprintable (by decide)

theorem isBlank_compact_append (hv : v.Portable) (rest : Text) :
    ¬ Text.isBlank (Json.compact v ++ rest) = true := by
  obtain ⟨c, tail, hc, hlow, hhigh, -⟩ := Json.compact_begins hv
  rw [hc, List.cons_append, Text.isBlank, List.all_cons,
    CodePoint.isBlank_of_visible hlow hhigh]
  exact Bool.false_ne_true

/-- A line that a value was written in delivers that value, whether it is ended or not. -/
theorem feedOf_compact (hv : Fits v) (hrest : t = [] ∨ t = "\n") :
    feedOf none [Json.compact v ++ t] = ⟨[v], none⟩ := by
  have hdecode : Json.decode .lenient (Json.compact v ++ t) = .ok v := by
    rcases hrest with rfl | rfl
    · exact Json.decode_compact hv.1 hv.2 .nil rfl
    · exact Json.decode_compact hv.1 hv.2 (.cons (by decide)) (by decide)
  simp only [feedOf, if_neg (isBlank_compact_append hv.1 t), hdecode]

/-- The last line is read although nothing ends it. -/
theorem feedText_last (hline : IsLine line) : feedText line = feedOf none [line] := by
  have hunify : unify line = line := by
    have h := unifyAfter_line hline []
    rwa [List.append_nil, unifyAfter, List.append_nil] at h
  rw [feedText, hunify, linesOf_last fun c hc => (hline c hc).1]
  split
  · next hempty =>
    rw [List.isEmpty_iff.1 hempty, feedOf_blank rfl]
    rfl
  · rfl

/-- Samples are read from a text that spells them. -/
theorem Spells.feedText (h : Spells vs t) (hvs : ∀ v ∈ vs, Fits v) :
    feedText t = ⟨vs, none⟩ := by
  induction h with
  | nil hline hblank => rw [feedText_last hline, feedOf_blank hblank]
  | last v =>
    have hv := hvs v (List.mem_singleton_self v)
    have hread := feedOf_compact hv (.inl rfl)
    rw [List.append_nil] at hread
    rw [feedText_last (isLine_compact hv.1), hread]
  | blank hline hblank hending _ ih =>
    rw [feedText_line hline hending, feedOf_blank (isBlank_append_newline hblank), ih hvs]
    rfl
  | sample v hending _ ih =>
    rw [List.forall_mem_cons] at hvs
    rw [feedText_line (isLine_compact hvs.1.1) hending, feedOf_compact hvs.1 (.inr rfl), ih hvs.2]
    rfl

theorem isSurrogate_of_blank (hblank : line.isBlank = true) :
    ∀ c ∈ line, c.isSurrogate = false := by
  intro c hc
  have h := List.all_eq_true.1 hblank c hc
  simp only [CodePoint.isBlank, blanks, Ranges.contains, Bool.or_eq_true, Bool.and_eq_true,
    decide_eq_true_eq, Bool.false_eq_true, or_false] at h
  simp only [CodePoint.isSurrogate, Bool.and_eq_false_iff, decide_eq_false_iff_not]
  omega

theorem isSurrogate_of_isEnding (hending : IsEnding ending) :
    ∀ c ∈ ending, c.isSurrogate = false := by
  rcases hending with rfl | rfl | rfl <;> decide

/-- A text that spells portable samples is made of Unicode scalar values. -/
theorem Spells.scalar (h : Spells vs t) (hvs : ∀ v ∈ vs, v.Portable) :
    ∀ c ∈ t, c.isSurrogate = false := by
  have happend : ∀ {line ending t : Text}, (∀ c ∈ line, c.isSurrogate = false) → IsEnding ending →
      (∀ c ∈ t, c.isSurrogate = false) → ∀ c ∈ line ++ (ending ++ t), c.isSurrogate = false := by
    intro line ending t hline hending ht
    simp only [List.forall_mem_append]
    exact ⟨hline, isSurrogate_of_isEnding hending, ht⟩
  have hcompact : ∀ {v : Value}, v.Portable → ∀ c ∈ Json.compact v, c.isSurrogate = false :=
    fun hv c hc => (Json.printable_compact hv c hc).not_surrogate
  induction h with
  | nil hline hblank => exact isSurrogate_of_blank hblank
  | last v => exact hcompact (hvs v (List.mem_singleton_self v))
  | blank hline hblank hending _ ih =>
    exact happend (isSurrogate_of_blank hblank) hending (ih hvs)
  | sample v hending _ ih =>
    rw [List.forall_mem_cons] at hvs
    exact happend (hcompact hvs.1) hending (ih hvs.2)

/-- **The samples that a file spells are read from it.** -/
theorem feed_of_spells (h : Spells vs t) (hvs : ∀ v ∈ vs, Fits v) : feed t.utf8 = ⟨vs, none⟩ := by
  rw [feed_utf8 (h.scalar fun v hv => (hvs v hv).1), h.feedText hvs]

end TypeSketch.Lines
