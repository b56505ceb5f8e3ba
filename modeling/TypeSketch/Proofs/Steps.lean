import TypeSketch.Json.Decode
import TypeSketch.Text.Blank

/-!
# The steps of reading a value

The loop that reads a value takes one step for each bracket, comma and scalar. Each equation says
what one step does, so that nothing else needs to look into the loop.

* `skipBlanks_visible`: white space is skipped up to a visible character.
* `run_bracket`: a bracket opens a frame, unless what it opens is closed at once.
* `run_scalar`: a scalar is read.
* `run_behind`: behind a value its frame goes on or is closed.
* `run_done`: behind the outermost value the loop ends.
* `elements_comma`, `elements_bracket`: behind an element the array goes on or is closed.
-/

namespace TypeSketch

/-- The visible ASCII characters are not white space. -/
theorem CodePoint.isBlank_of_visible {c : CodePoint} (hlow : 0x20 < c.val) (hhigh : c.val < 0x7F) :
    c.isBlank = false := by
  simp only [CodePoint.isBlank, blanks, Ranges.contains, Bool.and_eq_false_iff, Bool.or_eq_false_iff,
    decide_eq_false_iff_not]
  omega

namespace Json

variable {d : Dialect} {frames : List Frame} {c : CodePoint} {rest : Text}

/-- Neither dialect skips a visible character. -/
theorem skipBlanks_visible (hc : 0x20 < c.val) (rest : Text) :
    d.skipBlanks (c :: rest) = c :: rest := by
  refine List.dropWhile_cons_of_neg ?_
  cases d with
  | lenient =>
    have hne : ∀ e : CodePoint, e.val ≤ 0x20 → c ≠ e := by
      rintro e he rfl
      omega
    simp [Dialect.isBlank, hne ' ' (by decide), hne '\t' (by decide), hne '\n' (by decide),
      hne '\r' (by decide)]
  | strict =>
    have hne : c ≠ ' ' := by
      rintro rfl
      exact absurd hc (by decide)
    simp only [Dialect.isBlank, hne, decide_false, Bool.false_or, Bool.and_eq_true,
      decide_eq_true_eq]
    omega

/-! ## Values -/

/-- Where the loop goes on from what an opening or closing bracket or a comma leads to. -/
def goOn (d : Dialect) (frames : List Frame) :
    Except Mishap (Sum (Value × Text) (Frame × Text)) → Except Mishap (Value × Text)
  | .error m => .error m
  | .ok (.inl (v, rest)) => run d frames (.behind v) rest
  | .ok (.inr (f, rest)) => run d (f :: frames) .before rest

theorem run_bracket (hc : c = '[' ∨ c = '\x7b') (hnest : d.mayNest frames.length = true) :
    run d frames .before (c :: rest) = goOn d frames (opening d c rest) := by
  rw [run, if_pos (by simpa using hc), if_pos hnest]
  split
  · next m h => rw [h, goOn]
  · next v r h => rw [h, goOn]
  · next f r h => rw [h, goOn]

theorem run_scalar (hopen : c ≠ '[') (hbrace : c ≠ '\x7b') :
    run d frames .before (c :: rest) =
      scalar d (c :: rest) >>= fun r => run d frames (.behind r.1) r.2 := by
  rw [run, if_neg (by simp [hopen, hbrace])]
  split
  · next m h =>
    rw [h]
    rfl
  · next v r h =>
    rw [h]
    rfl

theorem run_behind (f : Frame) (v : Value) (t : Text) :
    run d (f :: frames) (.behind v) t = goOn d frames (closing d f v t) := by
  rw [run]
  split
  · next m h => rw [h, goOn]
  · next w r h => rw [h, goOn]
  · next g r h => rw [h, goOn]

theorem run_done (d : Dialect) (v : Value) (t : Text) : run d [] (.behind v) t = .ok (v, t) := by
  rw [run]

/-! ## Elements -/

theorem elements_comma {done : List Value} {t : Text} {v : Value}
    (h : run d [] .before t = .ok (v, ',' :: rest)) :
    elements d done t = elements d (v :: done) (d.skipBlanks rest) := by
  have hskip : d.skipBlanks ((',' : CodePoint) :: rest) = (',' : CodePoint) :: rest :=
    skipBlanks_visible (by decide) rest
  rw [elements]
  split
  · next m hm =>
    rw [h] at hm
    cases hm
  · next w rest' hw =>
    rw [h] at hw
    cases hw
    split
    · next hnil =>
      rw [hskip] at hnil
      cases hnil
    · next c' rest' hcons =>
      rw [hskip] at hcons
      cases hcons
      exact if_pos rfl

theorem elements_bracket {done : List Value} {t : Text} {v : Value}
    (h : run d [] .before t = .ok (v, ']' :: rest)) (hrest : d.skipBlanks rest = []) :
    elements d done t = ((v :: done).reverse, none) := by
  have hskip : d.skipBlanks ((']' : CodePoint) :: rest) = (']' : CodePoint) :: rest :=
    skipBlanks_visible (by decide) rest
  rw [elements]
  split
  · next m hm =>
    rw [h] at hm
    cases hm
  · next w rest' hw =>
    rw [h] at hw
    cases hw
    split
    · next hnil =>
      rw [hskip] at hnil
      cases hnil
    · next c' rest' hcons =>
      rw [hskip] at hcons
      cases hcons
      rw [if_neg (by decide), if_pos rfl, hrest]

end Json

end TypeSketch
