import Mathlib.Data.List.TakeWhile
import TypeSketch.Console

/-!
# Source text on a console

Source text is shown line by line. A console shows no control characters, puts blanks for tabs and
cuts a line where its columns end, so that not every line is shown as it stands.

* `shownLine`, `lines_cropped`: a line of source text is shown on a line of its own.
* `tidy_append_spaces`, `eq_tidy_append`: a line is its tidy form with blanks behind it.
* `Fits`: a line that the console can show.
* `shownLine_eq_tidy_iff`: **a line is shown as it stands, up to blanks at its end, exactly when it
  fits.**
* `shown_eq_tidy_iff`: so are all lines of a text.
-/

namespace TypeSketch

/-- The lines of a text, the last of which has no line feed behind it. -/
def Text.lines (t : Text) : List Text := t.splitOn '\n'

namespace Text

variable {t : Text} {c : CodePoint} {width : Nat}

/-- No part of a text holds the code point that it was cut at. -/
theorem not_mem_of_mem_splitOn {part : Text} (h : part ∈ t.splitOn c) : c ∉ part := by
  induction t generalizing part with
  | nil =>
    rw [List.mem_singleton.1 h]
    exact List.not_mem_nil
  | cons d t ih =>
    rw [splitOn] at h
    split at h
    · rcases List.mem_cons.1 h with rfl | h
      · exact List.not_mem_nil
      · exact ih h
    · next hd =>
      split at h
      · next hnil => exact absurd hnil (splitOn_ne_nil _ _)
      · next first others hparts =>
        rw [hparts] at ih
        rcases List.mem_cons.1 h with rfl | h
        · have hfirst := ih List.mem_cons_self
          exact List.not_mem_cons_of_ne_of_not_mem (Ne.symm hd) hfirst
        · exact ih (List.mem_cons_of_mem _ h)

theorem columns_spaces (n : Nat) : columns (spaces n) = n := by
  induction n with
  | zero => rfl
  | succ n ih =>
    have hblank : CodePoint.columns ' ' = 1 := rfl
    show columns ((' ' : CodePoint) :: spaces n) = _
    rw [columns_cons, ih, hblank, Nat.add_comm]

theorem fitting_append (h : t.columns ≤ width) (rest : Text) :
    fitting width (t ++ rest) = t ++ fitting (width - t.columns) rest := by
  induction t generalizing width with
  | nil => simp
  | cons c t ih =>
    rw [columns_cons] at h
    rw [List.cons_append, fitting, if_pos (by omega), ih (by omega), columns_cons, Nat.sub_sub]
    rfl

theorem fitting_spaces (n : Nat) : fitting width (spaces n) = spaces (min width n) := by
  induction n generalizing width with
  | zero => simp [spaces, times, fitting]
  | succ n ih =>
    have hblank : CodePoint.columns ' ' = 1 := rfl
    show fitting width ((' ' : CodePoint) :: spaces n) = _
    rw [fitting, hblank]
    cases width with
    | zero => simp [spaces, times]
    | succ width =>
      rw [if_pos (by omega), Nat.add_sub_cancel, ih, Nat.succ_min_succ]
      rfl

theorem columns_cropTo_le (width : Nat) (t : Text) : (cropTo width t).columns ≤ width := by
  unfold cropTo
  split
  · assumption
  · have h := columns_fitting_le width t
    rw [columns_append, columns_spaces]
    omega

theorem mem_of_mem_fitting (h : c ∈ fitting width t) : c ∈ t := by
  induction t generalizing width with
  | nil => cases h
  | cons d t ih =>
    rw [fitting] at h
    split at h
    · rcases List.mem_cons.1 h with rfl | h
      · exact List.mem_cons_self
      · exact List.mem_cons_of_mem _ (ih h)
    · cases h

/-- What is cut down holds nothing new but blanks. -/
theorem mem_of_mem_cropTo (h : c ∈ cropTo width t) : c ∈ t ∨ c = ' ' := by
  unfold cropTo at h
  split at h
  · exact .inl h
  · rcases List.mem_append.1 h with h | h
    · exact .inl (mem_of_mem_fitting h)
    · exact .inr (List.eq_of_mem_replicate h)

end Text

namespace Wrap

variable {stop column : Nat} {line : Text}

/-- A line without tabs has none to expand. -/
theorem expandTabsFrom_of_no_tab (h : ∀ c ∈ line, c ≠ '\t') :
    expandTabsFrom stop column line = line := by
  induction line generalizing column with
  | nil => rfl
  | cons c rest ih =>
    rw [List.forall_mem_cons] at h
    rw [expandTabsFrom, if_neg h.1, ih h.2]

/-- Expansion adds nothing but blanks. -/
theorem mem_of_mem_expandTabsFrom {c : CodePoint} (h : c ∈ expandTabsFrom stop column line) :
    c ∈ line ∨ c = ' ' := by
  induction line generalizing column with
  | nil => cases h
  | cons d rest ih =>
    rw [expandTabsFrom] at h
    split at h
    · rcases List.mem_append.1 h with h | h
      · exact .inr (List.eq_of_mem_replicate h)
      · exact (ih h).imp_left (List.mem_cons_of_mem _)
    · rcases List.mem_cons.1 h with rfl | h
      · exact .inl List.mem_cons_self
      · exact (ih h).imp_left (List.mem_cons_of_mem _)

/-- Behind expansion no tab is left. -/
theorem ne_tab_of_mem_expandTabsFrom {c : CodePoint} (h : c ∈ expandTabsFrom stop column line) :
    c ≠ '\t' := by
  induction line generalizing column with
  | nil => cases h
  | cons d rest ih =>
    rw [expandTabsFrom] at h
    split at h
    · rcases List.mem_append.1 h with h | h
      · rw [List.eq_of_mem_replicate h]
        decide
      · exact ih h
    · next hd =>
      rcases List.mem_cons.1 h with rfl | h
      · exact hd
      · exact ih h

end Wrap

namespace Console

variable {t line : Text} {c : CodePoint}

/-- A line of source text as it is shown. -/
def shownLine (line : Text) : Text :=
  tidy (Text.cropTo width (Markup.printable (Wrap.expandTabs 4 line)))

/-- A line that the console can show: nothing in it is left out or replaced, and its columns are
there, those of the blanks at its end apart. -/
structure Fits (line : Text) : Prop where
  plain : ∀ c ∈ line, c ≠ '\t' ∧ Markup.isControl c = false
  columns : (tidy line).columns ≤ width

theorem fits_iff : Fits line ↔
    (∀ c ∈ line, c ≠ '\t' ∧ Markup.isControl c = false) ∧ (tidy line).columns ≤ width :=
  ⟨fun h => ⟨h.plain, h.columns⟩, fun h => ⟨h.1, h.2⟩⟩

instance : Decidable (Fits line) := decidable_of_iff _ fits_iff.symm

theorem mem_of_mem_tidy (h : c ∈ tidy line) : c ∈ line := by
  unfold tidy at h
  exact List.mem_reverse.1 ((List.dropWhile_sublist _).mem (List.mem_reverse.1 h))

theorem tidy_append_spaces (t : Text) (n : Nat) : tidy (t ++ Text.spaces n) = tidy t := by
  have hblanks : ∀ c ∈ (Text.spaces n).reverse, CodePoint.is ' ' c = true := by
    intro c hc
    rw [List.eq_of_mem_replicate (List.mem_reverse.1 hc)]
    rfl
  unfold tidy
  rw [List.reverse_append, List.dropWhile_append_of_pos hblanks]

/-- A line is its tidy form with blanks behind it. -/
theorem eq_tidy_append (line : Text) : ∃ n, line = tidy line ++ Text.spaces n := by
  have hblanks : ∀ c ∈ line.reverse.takeWhile (CodePoint.is ' '), c = ' ' := by
    intro c hc
    simpa [CodePoint.is] using List.mem_takeWhile_imp hc
  refine ⟨(line.reverse.takeWhile (CodePoint.is ' ')).length, ?_⟩
  have hspaces : line.reverse.takeWhile (CodePoint.is ' ') = Text.spaces _ :=
    List.eq_replicate_of_mem hblanks
  have hsplit := congrArg List.reverse
    (List.takeWhile_append_dropWhile (p := CodePoint.is ' ') (l := line.reverse))
  rw [List.reverse_append, List.reverse_reverse, hspaces] at hsplit
  have hreversed : (Text.spaces (line.reverse.takeWhile (CodePoint.is ' ')).length).reverse =
      Text.spaces _ := List.reverse_replicate ..
  rw [hreversed] at hsplit
  exact hsplit.symm

theorem mem_tidy (h : c ∈ line) (hc : c ≠ ' ') : c ∈ tidy line := by
  obtain ⟨n, hn⟩ := eq_tidy_append line
  rw [hn] at h
  rcases List.mem_append.1 h with h | h
  · exact h
  · exact absurd (List.eq_of_mem_replicate h) hc

theorem columns_tidy_le (line : Text) : (tidy line).columns ≤ line.columns := by
  obtain ⟨n, hn⟩ := eq_tidy_append line
  have hcolumns := congrArg Text.columns hn
  rw [Text.columns_append] at hcolumns
  omega

/-- Cutting off columns of which only blanks remain changes nothing but blanks. -/
theorem tidy_cropTo (h : (tidy line).columns ≤ width) :
    tidy (Text.cropTo width line) = tidy line := by
  unfold Text.cropTo
  split
  · rfl
  · obtain ⟨n, hn⟩ := eq_tidy_append line
    have hfitting : Text.fitting width line =
        tidy line ++ Text.spaces (min (width - (tidy line).columns) n) := by
      have hcut := congrArg (Text.fitting width) hn
      rwa [Text.fitting_append h, Text.fitting_spaces] at hcut
    calc tidy (Text.fitting width line ++ Text.spaces _)
      _ = tidy (Text.fitting width line) := tidy_append_spaces _ _
      _ = tidy (tidy line ++ Text.spaces _) := by rw [hfitting]
      _ = tidy (tidy line ++ Text.spaces n) := by rw [tidy_append_spaces, tidy_append_spaces]
      _ = tidy line := by rw [← hn]

theorem printable_of_plain (h : ∀ c ∈ line, Markup.isControl c = false) :
    Markup.printable line = line := by
  unfold Markup.printable
  rw [List.filter_eq_self]
  intro c hc
  rw [h c hc]
  rfl

/-- What is shown holds neither tabs nor control characters. -/
theorem plain_of_mem_shownLine (h : c ∈ shownLine line) :
    c ≠ '\t' ∧ Markup.isControl c = false := by
  rcases Text.mem_of_mem_cropTo (mem_of_mem_tidy h) with h | rfl
  · obtain ⟨hin, hcontrol⟩ := List.mem_filter.1 h
    exact ⟨Wrap.ne_tab_of_mem_expandTabsFrom hin, by simpa using hcontrol⟩
  · decide

/-- What is shown holds nothing new but blanks. -/
theorem mem_of_mem_shownLine (h : c ∈ shownLine line) : c ∈ line ∨ c = ' ' := by
  rcases Text.mem_of_mem_cropTo (mem_of_mem_tidy h) with h | rfl
  · exact Wrap.mem_of_mem_expandTabsFrom (List.mem_filter.1 h).1
  · exact .inr rfl

/-- **Each line of a text is shown on a line of its own.** Behind the last one nothing follows. -/
theorem lines_cropped (t : Text) : (cropped t).lines = t.lines.map shownLine ++ [[]] := by
  have hprinted : ∀ lines : List Text, (∀ line ∈ lines, ('\n' : CodePoint) ∉ line) →
      Text.lines (lines.flatMap fun line => line ++ Text.ofString "\n") = lines ++ [[]] := by
    intro lines h
    induction lines with
    | nil => rfl
    | cons line lines ih =>
      rw [List.forall_mem_cons] at h
      rw [List.flatMap_cons, List.append_assoc, List.cons_append, ← ih h.2]
      exact Text.splitOn_append h.1 _
  have hcropped : cropped t =
      (t.lines.map shownLine).flatMap fun line => line ++ Text.ofString "\n" := by
    unfold cropped printed
    rw [List.flatMap_map, List.flatMap_map]
    rfl
  rw [hcropped]
  apply hprinted
  intro shown hshown
  obtain ⟨line, hline, rfl⟩ := List.mem_map.1 hshown
  intro hmem
  rcases mem_of_mem_shownLine hmem with hmem | hblank
  · exact Text.not_mem_of_mem_splitOn hline hmem
  · exact absurd hblank (by decide)

/-- **A line is shown as it stands, up to blanks at its end, exactly when it fits.** -/
theorem shownLine_eq_tidy_iff : shownLine line = tidy line ↔ Fits line := by
  constructor
  · intro h
    refine ⟨fun c hc => ?_, ?_⟩
    · by_cases hblank : c = ' '
      · subst hblank
        decide
      · exact plain_of_mem_shownLine (h ▸ mem_tidy hc hblank)
    · rw [← h]
      exact (columns_tidy_le _).trans (Text.columns_cropTo_le _ _)
  · intro h
    have htabs : Wrap.expandTabs 4 line = line :=
      Wrap.expandTabsFrom_of_no_tab fun c hc => (h.plain c hc).1
    unfold shownLine
    rw [htabs, printable_of_plain fun c hc => (h.plain c hc).2, tidy_cropTo h.columns]

/-- The lines of a text are all shown as they stand exactly when they all fit. -/
theorem shown_eq_tidy_iff (lines : List Text) :
    lines.map shownLine = lines.map tidy ↔ ∀ line ∈ lines, Fits line := by
  rw [List.map_inj_left]
  exact forall₂_congr fun line _ => shownLine_eq_tidy_iff

end Console

end TypeSketch
