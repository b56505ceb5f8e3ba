import TypeSketch.Samples.Feed
import TypeSketch.Text.Blank
import TypeSketch.Text.Utf8.Blocks

/-!
# Samples of JSON Lines

* `Lines.feed`: one sample for each line that is not blank. Lines end with a line feed, a carriage
  return or both. The file is decoded block by block, so the lines in front of the block with the
  first flaw are delivered.
-/

namespace TypeSketch.Lines

/-- Every line end as one line feed, in a text behind a carriage return or not. -/
def unifyAfter (returned : Bool) : Text → Text
  | [] => []
  | c :: rest =>
    if c = '\r' then '\n' :: unifyAfter true rest
    else if c = '\n' && returned then unifyAfter false rest
    else c :: unifyAfter false rest

/-- Every line end as one line feed. -/
def unify (t : Text) : Text := unifyAfter false t

/-- The lines of a text, each with its line feed, given the line that was begun, in reverse; and
what follows the last line feed. -/
def cut (line : Text) : Text → List Text × Text
  | [] => ([], line.reverse)
  | c :: rest =>
    if c = '\n' then
      let (lines, last) := cut [] rest
      ((c :: line).reverse :: lines, last)
    else cut (c :: line) rest

/-- A text without a carriage return at its end, which a line feed may still follow. -/
def withoutLastReturn (t : Text) : Text := if t.getLast? = some '\r' then t.dropLast else t

/-- The lines of a file that can be read, and the flaw behind them. -/
def ofBytes (bytes : List UInt8) : List Text × Option Utf8.Flaw :=
  match Utf8.decodeBlocks Utf8.blockSize bytes with
  | (t, none) =>
    let (lines, last) := cut [] (unify t)
    (if last.isEmpty then lines else lines ++ [last], none)
  | (t, some flaw) => ((cut [] (unify (withoutLastReturn t))).1, some flaw)

/-- The fault of a line that reading JSON from it ran into. -/
def faultOf (line : Text) (m : Json.Mishap) : Fault :=
  match m.complaint? line, m with
  | some complaint, _ => .malformedLine complaint
  | none, .longInteger digits => .longInteger digits
  | none, _ => .tooDeep none

/-- The samples of some lines and a fault behind them. -/
def feedOf (behind : Option Fault) : List Text → Feed
  | [] => { fault := behind }
  | line :: rest =>
    if line.isBlank then feedOf behind rest
    else match Json.decode .lenient line with
      | .ok v =>
        let f := feedOf behind rest
        { f with samples := v :: f.samples }
      | .error m => .failing (faultOf line m)

/-- The samples of a file. -/
def feed (bytes : List UInt8) : Feed :=
  let (lines, flaw) := ofBytes bytes
  feedOf (flaw.map .undecodable) lines

end TypeSketch.Lines
