import TypeSketch.Console.Markup
import TypeSketch.Console.Table

/-!
# What is printed on a console

A console is 1000 columns wide and shows neither colours nor the blanks at the end of a line.

* `Console.markedUp`: a message with markup.
* `Console.plain`: a text that is wrapped but has no markup.
* `Console.cropped`: source text, one line for each of its own.
* `Console.table`: a table whose cells have markup.
-/

namespace TypeSketch.Console

/-- The columns of the console. -/
def width : Nat := 1000

/-- A line without the blanks at its end. -/
def tidy (line : Text) : Text := (line.reverse.dropWhile (CodePoint.is ' ')).reverse

/-- Some lines as they are printed. -/
def printed (lines : List Text) : Text := lines.flatMap fun line => tidy line ++ "\n"

/-- A text, wrapped. -/
def plain (t : Text) : Text := printed (Wrap.lines width .fold (Markup.printable t))

/-- A message with markup, wrapped. -/
def markedUp (t : Text) : Except Fault Text :=
  match Markup.render t with
  | .ok shown => .ok (printed (Wrap.lines width .fold shown))
  | .error m => .error (.markup m)

/-- A text whose lines are neither wrapped nor cut. -/
def unwrapped (t : Text) : Text := printed (t.splitOn '\n')

/-- Source text: tabs go to multiples of four, and lines are cut at the width of the console. -/
def cropped (t : Text) : Text :=
  printed ((t.splitOn '\n').map fun line =>
    Text.cropTo width (Markup.printable (Wrap.expandTabs 4 line)))

/-- A text with markup as it is shown. -/
def rendered (t : Text) : Except Fault Text :=
  match Markup.render t with
  | .ok shown => .ok shown
  | .error m => .error (.markup m)

/-- A table whose cells have markup. Its title and header have none. -/
def table (t : Table) : Except Fault Text := do
  let columns ← t.columns.mapM fun c => do
    let cells ← c.cells.mapM rendered
    pure { c with cells }
  pure (printed (Table.render width { t with columns }))

end TypeSketch.Console
