import TypeSketch.Fault

/-!
# The rows of comma-separated values

* `Sheet.rows`: the cells of a text, row by row. Blank lines are no rows. From the second row on, a
  row that is shorter than the one before it goes on with empty cells; from the third row on, one
  that is longer is a mistake.
* `Sheet.endRow_length`: so all rows that are read but the first have the same number of cells.
-/

namespace TypeSketch.Sheet

/-- A cell of a sheet. -/
abbrev Cell := Text

/-- Where in a sheet reading stands. -/
inductive Place where
  | lineStart
  /-- Behind blanks at the start of a line. -/
  | indented
  | cellStart
  | inCell
  | inQuotes
  /-- Behind a quote in a quoted cell: the end of the cell, or the first half of a quote in it. -/
  | afterQuote
deriving DecidableEq

/-- What has been read of a sheet. The cell, the row and the rows are in reverse. -/
structure Progress where
  place : Place := .lineStart
  cell : Text := []
  row : List Cell := []
  rows : List (List Cell) := []
  /-- How many lines lie behind, a row with line ends in its cells counted as one. -/
  lines : Nat := 0

namespace Progress

/-- A code point of the cell. -/
def push (p : Progress) (c : CodePoint) : Progress :=
  { p with place := .inCell, cell := c :: p.cell }

/-- The end of the cell. A null character and what follows it are no part of a cell. -/
def endCell (p : Progress) : Progress :=
  { p with
    place := .cellStart
    cell := []
    row := p.cell.reverse.takeWhile (fun c : CodePoint => c.val ≠ 0) :: p.row }

/-- The end of a line without cells. -/
def endBlank (p : Progress) : Progress :=
  { p with place := .lineStart, cell := [], lines := p.lines + 1 }

/-- The end of the row behind its last cell. -/
def endRow (p : Progress) : Except TableFault Progress :=
  let cells := p.row.reverse
  let started (row : List Cell) : Progress :=
    { place := .lineStart, rows := row :: p.rows, lines := p.lines + 1 }
  match p.rows with
  | [] => .ok (started cells)
  | above :: earlier =>
    if above.length < cells.length && !earlier.isEmpty then
      .error (.longRow above.length (p.lines + 1) cells.length)
    else .ok (started (cells ++ List.replicate (above.length - cells.length) []))

/-- The end of a line outside quotes. -/
def endLine (p : Progress) : Except TableFault Progress :=
  match p.place with
  | .lineStart | .indented => .ok p.endBlank
  | _ => p.endCell.endRow

/-- A code point where a cell may begin. -/
def begin (p : Progress) (c : CodePoint) : Progress :=
  if c = '"' then { p with place := .inQuotes }
  else if c = ',' then p.endCell
  else p.push c

/-- A code point inside a cell without quotes. -/
def go (p : Progress) (c : CodePoint) : Progress := if c = ',' then p.endCell else p.push c

/-- A code point that ends no line. -/
def read (p : Progress) (c : CodePoint) : Progress :=
  match p.place with
  | .lineStart =>
    if c = ' ' || c = '\t' then { p with place := .indented, cell := [c] } else p.begin c
  | .indented => if c = ' ' || c = '\t' then { p with cell := c :: p.cell } else p.go c
  | .cellStart => p.begin c
  | .inCell => p.go c
  | .inQuotes =>
    if c = '"' then { p with place := .afterQuote } else { p with cell := c :: p.cell }
  | .afterQuote =>
    if c = '"' then { p with place := .inQuotes, cell := c :: p.cell } else p.go c

/-- The end of the sheet. -/
def finish (p : Progress) : Except TableFault (List (List Cell)) :=
  match p.place with
  | .lineStart | .indented => .ok p.rows.reverse
  | .inQuotes => .error (.openQuote p.lines)
  | _ => (·.rows.reverse) <$> p.endCell.endRow

/-- The rows of the rest of a sheet. A carriage return outside quotes ends a line like a line feed,
and so do both together. -/
def run (p : Progress) (returned : Bool) : Text → Except TableFault (List (List Cell))
  | [] => p.finish
  | c :: rest =>
    if p.place = .inQuotes then (p.read c).run false rest
    else if c = '\n' && returned then p.run false rest
    else if c = '\n' || c = '\r' then
      match p.endLine with
      | .ok p => p.run (c = '\r') rest
      | .error fault => .error fault
    else (p.read c).run false rest

/-- **A row below the first is as long as the row above it,** unless it is the second and longer. -/
theorem endRow_length {p q : Progress} {above cells : List Cell} {earlier : List (List Cell)}
    (hp : p.rows = above :: earlier) (h : p.endRow = .ok q) (hq : q.rows = cells :: p.rows) :
    cells.length = above.length ∨ (earlier = [] ∧ above.length < cells.length) := by
  unfold endRow at h
  rw [hp] at h
  simp only at h
  by_cases hlong : (decide (above.length < p.row.reverse.length) && !earlier.isEmpty) = true
  · rw [if_pos hlong] at h
    cases h
  · rw [if_neg hlong] at h
    simp only [Except.ok.injEq] at h
    subst h
    simp only [hp, List.cons.injEq, and_true] at hq
    subst hq
    simp only [Bool.and_eq_true, decide_eq_true_eq, Bool.not_eq_true', List.isEmpty_eq_false_iff,
      ne_eq, not_and, Decidable.not_not] at hlong
    rw [List.length_append, List.length_replicate]
    by_cases hl : above.length < p.row.reverse.length
    · exact Or.inr ⟨hlong hl, by omega⟩
    · exact Or.inl (by omega)

end Progress

/-- The rows of a sheet. -/
def rows (t : Text) : Except TableFault (List (List Cell)) := ({} : Progress).run false t

end TypeSketch.Sheet
