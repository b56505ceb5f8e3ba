import TypeSketch.Json.Dialect
import TypeSketch.Text.Blank
import TypeSketch.Text.Digit

/-!
# Integers as they are typed

* `Text.toInt?`: the integer that a text denotes, with digits of any script.
-/

namespace TypeSketch.Text

/-- The digits of a numeral, each of any script. A single underscore may stand between two of them.
-/
def typedDigits? : Text → Option (List Nat)
  | [] => none
  | [c] => c.decimal?.map fun n => [n]
  | c :: d :: rest =>
    match c.decimal? with
    | none => none
    | some n => (if d = '_' then typedDigits? rest else typedDigits? (d :: rest)).map (n :: ·)

/-- The white space around a numeral. Separators count as such only beside characters that are not
ASCII. -/
def aroundNumeral (t : Text) (c : CodePoint) : Bool :=
  if t.all fun d : CodePoint => d.val < 0x80 then c.isAsciiBlank else c.isBlank

/-- The integer that a text denotes: white space, a sign, digits and white space. -/
def toInt? (t : Text) : Option Int :=
  let (negative, digits) := (t.stripBy (aroundNumeral t)).cutSign
  match typedDigits? digits with
  | none => none
  | some ds =>
    if Json.Dialect.maxDigits < ds.length then none
    else
      let n : Int := ds.foldl (fun (n : Int) (d : Nat) => n * 10 + d) 0
      some (if negative then -n else n)

end TypeSketch.Text
