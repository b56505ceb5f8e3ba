import TypeSketch.Samples.Feed
import TypeSketch.Samples.Sheet.Column
import TypeSketch.Text.Utf8.Blocks

/-!
# Samples of a sheet of comma-separated values

* `Sheet.columnNames`: the names of the columns. A column without a name is known by its place, and
  a name that is taken is numbered.
* `Sheet.feed`: one object for each row below the header. When the rows are longer than the header,
  the surplus at their front names the rows and is no part of the samples.
-/

namespace TypeSketch.Sheet

/-- The first numbering of a name, from a number on, that is not among some names; and its number.
-/
def numbered (names : List Text) (name : Text) : Nat → Nat → Text × Nat
  | 0, n => (name ++ "." ++ Text.decimal n, n)
  | fuel + 1, n =>
    let candidate := name ++ "." ++ Text.decimal n
    if names.contains candidate then numbered names name fuel (n + 1) else (candidate, n)

/-- Names of columns, and how often each was given so far. -/
structure Naming where
  names : List Text
  counts : Entries Nat := []

/-- The naming after the column at a place has got its name. -/
def Naming.settle (w : Naming) (i : Nat) : Naming :=
  let name := w.names.getD i []
  match w.counts.get? name with
  | none => { w with counts := w.counts.put name 1 }
  | some count =>
    let (fresh, n) := numbered w.names name w.names.length count
    { names := w.names.set i fresh
      counts := (w.counts.put name (n + 1)).put fresh 1 }

/-- The name of a column without one. -/
def placeName (i : Nat) : Text := ("Unnamed: " : Text) ++ Text.decimal i

/-- The names of the columns below a header. Names that are written there are settled first. -/
def columnNames (header : List Cell) : List Text :=
  let nameless := (List.range header.length).filter fun i => (header.getD i []).isEmpty
  let named := (List.range header.length).filter fun i => !(header.getD i []).isEmpty
  let names := header.mapIdx fun i c => if c.isEmpty then placeName i else c
  ((named ++ nameless).foldl Naming.settle { names }).names

/-- The rows of some columns of a height. -/
def objects (height : Nat) (columns : List (Text × List Value)) : List Value :=
  (List.range height).map fun i => .object (columns.map fun c => (c.1, c.2.getD i .null))

/-- The samples of the rows of a sheet. -/
def samples : List (List Cell) → Feed
  | [] => .failing (.table .noColumns)
  | [_] => {}
  | header :: first :: rest =>
    let data := first :: rest
    -- Only the first row below the header decides how many cells name the rows.
    let surplus := first.length - header.length
    let columns := (columnNames header).mapIdx fun i name =>
      (name, Column.values (data.map fun row => row.getD (surplus + i) []))
    { samples := objects data.length columns }

/-- A text without the mark that may stand at the start of a file. -/
def unmarked : Text → Text
  | [] => []
  | c :: rest => if c.val = 0xFEFF then rest else c :: rest

/-- The samples of a file. Nothing is delivered of a file that cannot be read to its end. -/
def feed (bytes : List UInt8) : Feed :=
  match Utf8.decodeBlocks Utf8.wholeSize bytes with
  | (_, some flaw) => .failing (.undecodable flaw)
  | (t, none) =>
    match rows (unmarked t) with
    | .ok rows => samples rows
    | .error fault => .failing (.table fault)

end TypeSketch.Sheet
