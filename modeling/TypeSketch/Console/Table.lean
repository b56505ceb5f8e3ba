import TypeSketch.Console.Wrap
import TypeSketch.Number.Rounding

/-!
# Tables on a console

A table has a title, a header and rows in a box with a heavy head. Its columns are as wide as
their widest cells; when that is too wide for the console, the widest columns shrink first.

* `Table.render`: the lines of a table.
-/

namespace TypeSketch

/-- A column of a table. -/
structure Column where
  header : Text
  cells : List Text

/-- A table, as columns of equal length. -/
structure Table where
  title : Text
  columns : List Column

namespace Table

/-- The code points at which a cell's lines end when it is measured. -/
def endsLine (c : CodePoint) : Bool :=
  (10 ≤ c.val && c.val ≤ 13) || (0x1C ≤ c.val && c.val ≤ 0x1E) || c.val = 0x85 ||
    c.val = 0x2028 || c.val = 0x2029

/-- The columns that a text takes: those of its widest line, given the columns of the line so far
and of the widest one. -/
def widthFrom (line widest : Nat) : Text → Nat
  | [] => max line widest
  | c :: rest =>
    if endsLine c then widthFrom 0 (max line widest) rest
    else widthFrom (line + c.columns) widest rest

/-- The columns that a cell takes, with a blank on either side. -/
def cellWidth (t : Text) : Nat := widthFrom 0 0 t + 2

/-- The columns that a column takes when it may take at most some. -/
def columnWidth (most : Nat) (c : Column) : Nat :=
  min most (((c.header :: c.cells).map cellWidth).foldl max 0)

/-- Takes an amount from some widths in turn: each takes an equal share of what is left, shares
being counted over those that take part, but no more than its bound. -/
def reduce (amount shares : Nat) : List (Nat × Bool × Nat) → List Nat
  | [] => []
  | (width, takesPart, bound) :: rest =>
    if takesPart && 0 < shares then
      let part := min bound (roundHalfEven amount shares)
      (width - part) :: reduce (amount - part) (shares - 1) rest
    else width :: reduce amount shares rest

/-- The columns that some widths take together. -/
def total (widths : List Nat) : Nat := widths.foldl (· + ·) 0

/-- Widths that fit into a total, the widest ones shrunk first. -/
def collapse (most : Nat) : Nat → List Nat → List Nat
  | 0, widths => widths
  | fuel + 1, widths =>
    let excess := total widths - most
    let widest := widths.foldl max 0
    let second := (widths.map fun w => if w = widest then 0 else w).foldl max 0
    let difference := widest - second
    if excess = 0 || difference = 0 then widths
    else
      let bound := min excess difference
      let shares := widths.countP (· = widest)
      collapse most fuel
        (reduce excess shares (widths.map fun w => (w, decide (w = widest), bound)))

/-- The widths of the columns of a table in some space. -/
def widths (most : Nat) (columns : List Column) : List Nat :=
  let natural := columns.map (columnWidth most)
  if total natural ≤ most then natural
  else
    -- Each round of shrinking takes at least one column away, so the excess bounds their number.
    let narrow := collapse most (total natural - most) natural
    -- What is still too much is taken from all columns alike.
    let excess := total narrow - most
    let even := if excess = 0 then narrow
      else reduce excess (narrow.countP (0 < ·)) (narrow.map fun w => (w, decide (0 < w), w))
    (columns.zip even).map fun p => columnWidth p.2 p.1

/-- A text with blanks behind it up to some columns. -/
def fillTo (width : Nat) (t : Text) : Text := t ++ Text.spaces (width - t.columns)

/-- The lines of a cell of some width. -/
def cellLines (width : Nat) (t : Text) : List Text :=
  (Wrap.lines (width - 2) .ellipsis t).map fun line =>
    (" " : Text) ++ fillTo (width - 2) line ++ " "

/-- The lines of a row between some borders; cells with fewer lines go on with blanks. -/
def rowLines (border : Text) (widths : List Nat) (cells : List Text) : List Text :=
  let blocks := (widths.zip cells).map fun p => (p.1, cellLines p.1 p.2)
  let height := (blocks.map fun b => b.2.length).foldl max 1
  (List.range height).map fun i =>
    border ++ Text.join border (blocks.map fun b => b.2.getD i (Text.spaces b.1)) ++ border

/-- A line of the box: its left end, its stretch under a cell, its joints and its right end. -/
def ruleLine (left stretch joint right : Char) (widths : List Nat) : Text :=
  CodePoint.ofChar left ::
    (Text.join [CodePoint.ofChar joint] (widths.map fun w => Text.times w stretch) ++
      [CodePoint.ofChar right])

/-- A text in the middle of some columns. -/
def centred (width : Nat) (t : Text) : Text := Text.spaces ((width - t.columns) / 2) ++ t

/-- The cells of the rows of some columns. -/
def rows (columns : List Column) : List (List Text) :=
  let height := (columns.map fun c => c.cells.length).foldl max 0
  (List.range height).map fun i => columns.map fun c => c.cells.getD i []

/-- The lines of a table on a console of some columns. -/
def render (width : Nat) (t : Table) : List Text :=
  let borders := t.columns.length + 1
  let ws := widths (width - borders) t.columns
  let title := (Wrap.lines (total ws + borders) .fold t.title).map fun line =>
    centred (total ws + borders) line
  title ++ [ruleLine '┏' '━' '┳' '┓' ws] ++ rowLines "┃" ws (t.columns.map (·.header)) ++
    [ruleLine '┡' '━' '╇' '┩' ws] ++ (rows t.columns).flatMap (rowLines "│" ws) ++
    [ruleLine '└' '─' '┴' '┘' ws]

end Table

end TypeSketch
