import TypeSketch.Text.Blank
import TypeSketch.Text.Columns

/-!
# Laying out lines on a console

A text is cut into lines that fit some columns, between words where possible.

* `Wrap.lines`: the lines of a text.
* `Wrap.expandTabs`: a line with blanks up to the next stop for each tab.
-/

namespace TypeSketch.Wrap

/-- What becomes of a word that is wider than a line. -/
inductive Overflow where
  /-- It goes on in the next lines. -/
  | fold
  /-- It ends in an ellipsis. -/
  | ellipsis
deriving DecidableEq

/-- A line, from some column on, with blanks up to the next multiple of `stop` for each tab. -/
def expandTabsFrom (stop column : Nat) : Text → Text
  | [] => []
  | c :: rest =>
    if c = '\t' then
      let width := stop - column % stop
      Text.spaces width ++ expandTabsFrom stop (column + width) rest
    else c :: expandTabsFrom stop (column + c.columns) rest

/-- A line with blanks up to the next multiple of `stop` for each tab. -/
def expandTabs (stop : Nat) (line : Text) : Text := expandTabsFrom stop 0 line

/-- The next word of a line with the white space around it, and the rest; none is left when there is
only white space. -/
def nextWord? (line : Text) : Option (Text × Text) :=
  let solid := line.dropWhile CodePoint.isBlank
  if solid.isEmpty then none
  else
    let behind := solid.dropWhile fun c => !c.isBlank
    let rest := behind.dropWhile CodePoint.isBlank
    some (line.take (line.length - rest.length), rest)

theorem nextWord?_length {line word rest : Text} (h : nextWord? line = some (word, rest)) :
    rest.length < line.length := by
  unfold nextWord? at h
  simp only at h
  split at h
  · cases h
  · next hs =>
    cases h
    have h1 := (List.dropWhile_suffix CodePoint.isBlank (l := line)).length_le
    have h3 := (List.dropWhile_suffix CodePoint.isBlank
      (l := (line.dropWhile CodePoint.isBlank).dropWhile fun c => !c.isBlank)).length_le
    have h2 : ((line.dropWhile CodePoint.isBlank).dropWhile fun c => !c.isBlank).length <
        (line.dropWhile CodePoint.isBlank).length := by
      cases hd : line.dropWhile CodePoint.isBlank with
      | nil => simp [hd] at hs
      | cons c r =>
        have hc : c.isBlank = false := by
          have := List.head_dropWhile_not CodePoint.isBlank (l := line) (by rw [hd]; simp)
          simpa [hd] using this
        have := (List.dropWhile_suffix (fun c : CodePoint => !c.isBlank) (l := r)).length_le
        simp only [List.dropWhile_cons, hc, Bool.not_false, if_true, List.length_cons]
        omega
    omega

/-- The words of a line, each with the white space behind it. -/
def words (line : Text) : List Text :=
  match _h : nextWord? line with
  | none => []
  | some (word, rest) => word :: words rest
termination_by line.length
decreasing_by exact nextWord?_length _h

/-- A word cut into pieces of at most `width` columns. -/
def chop (width used : Nat) (piece : Text) : Text → List Text
  | [] => [piece.reverse]
  | c :: rest =>
    if width < used + c.columns then piece.reverse :: chop width c.columns [c] rest
    else chop width (used + c.columns) (c :: piece) rest

/-- A word without the white space behind it. -/
def bare (word : Text) : Text := (word.reverse.dropWhile CodePoint.isBlank).reverse

/-- The lines of some words, given the line that is being filled, in reverse, and its columns; a
line is begun when it holds a word. -/
def fill (width : Nat) (overflow : Overflow) (line : Text) (used : Nat) : List Text → List Text
  | [] => [line.reverse]
  | word :: rest =>
    let size := (bare word).columns
    if used + size ≤ width then
      fill width overflow (word.reverse ++ line) (used + word.columns) rest
    else if width < size then
      match overflow with
      | .fold =>
        let pieces := chop width 0 [] word
        let last := pieces.getLastD []
        let done := if line.isEmpty then [] else [line.reverse]
        done ++ pieces.dropLast ++ fill width overflow last.reverse last.columns rest
      | .ellipsis =>
        -- The word stays whole here and is cut when its line is finished.
        let done := if line.isEmpty then [] else [line.reverse]
        done ++ fill width overflow word.reverse word.columns rest
    else if used = 0 || line.isEmpty then
      fill width overflow (word.reverse ++ line) used rest
    else line.reverse :: fill width overflow word.reverse word.columns rest

/-- A line without as much of the white space at its end as goes beyond some length. -/
def trimEnd (width : Nat) (line : Text) : Text :=
  let blank := line.length - (bare line).length
  line.take (line.length - min blank (line.length - width))

/-- A line cut down to some columns. -/
def truncate (width : Nat) (overflow : Overflow) (line : Text) : Text :=
  if line.columns ≤ width then line
  else match overflow with
    | .fold => line.cropTo width
    | .ellipsis => Text.cropTo (width - 1) line ++ "…"

/-- The lines of a line that has no tabs. One without words stays as it is. -/
def wrapLine (width : Nat) (overflow : Overflow) (line : Text) : List Text :=
  match words line with
  | [] => [line]
  | ws => fill width overflow [] 0 ws

/-- The lines of a text on a console of some columns, tabs expanded to eight. -/
def lines (width : Nat) (overflow : Overflow) (t : Text) : List Text :=
  (t.splitOn '\n').flatMap fun line =>
    (wrapLine width overflow (expandTabs 8 line)).map fun l =>
      truncate width overflow (trimEnd width l)

end TypeSketch.Wrap
