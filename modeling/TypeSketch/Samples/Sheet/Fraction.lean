import TypeSketch.Number.Shortest
import TypeSketch.Text.Blank

/-!
# Fractions in a sheet

A number with a fraction is read with seventeen digits and one rounding for each step, which is fast
and not always the nearest double, and it is delivered with ten decimal places.

* `Fraction.read?`: the double that a cell denotes.
* `Fraction.delivered?`: a double as it is delivered. What is not finite is not delivered.
-/

namespace TypeSketch.Fraction

/-- The number of digits that count. -/
def maxDigits : Nat := 17

/-- Ten times a number and a digit, rounded after either step. -/
def shifted (d : Double) (digit : Nat) : Double :=
  let (num, den) := d.fraction
  let (num, den) := (Double.ofRatio false (num * 10) den).fraction
  Double.ofRatio false (num + digit * den) den

/-- The number that some digits denote, every step rounded. -/
def ofDigits (digits : Text) : Double :=
  digits.foldl (fun d c => shifted d c.digitVal) (Double.zero false)

/-- A power of ten as a double. -/
def powerOfTen (k : Nat) : Double := Double.ofDecimal false 1 k

/-- The product of a number and a power of ten, rounded. -/
def times (negative : Bool) (d : Double) (k : Nat) : Double :=
  let (num, den) := d.fraction
  let (num', den') := (powerOfTen k).fraction
  Double.ofRatio negative (num * num') (den * den')

/-- The quotient of a number and a power of ten, rounded. -/
def divided (negative : Bool) (d : Double) (k : Nat) : Double :=
  let (num, den) := d.fraction
  let (num', den') := (powerOfTen k).fraction
  Double.ofRatio negative (num * den') (den * num')

/-- A number scaled by a power of ten. Below the smallest normal double it is scaled twice. -/
def scaled (negative : Bool) (d : Double) (exponent : Int) : Double :=
  if 308 < exponent then Double.infinity negative
  else if 0 ≤ exponent then times negative d exponent.toNat
  else if -308 ≤ exponent then divided negative d exponent.natAbs
  else if -616 ≤ exponent then divided negative (divided false d (exponent.natAbs - 308)) 308
  else Double.zero negative

/-- The exponent of a numeral and what follows it. There must be a digit behind the mark. -/
def exponent? (t : Text) : Option (Int × Text) :=
  match t with
  | [] => some (0, [])
  | c :: rest =>
    if c.toLower ≠ 'e' then some (0, c :: rest)
    else
      let (negative, rest) := Text.cutSign rest
      let digits := rest.takeWhile CodePoint.isDigit
      let n : Int := Text.natOfDigits digits
      if digits.isEmpty then none
      else some (if negative then -n else n, rest.dropWhile CodePoint.isDigit)

/-- The digits behind a point and what follows them. -/
def places : Text → Text × Text
  | [] => ([], [])
  | c :: rest =>
    if c = '.' then (rest.takeWhile CodePoint.isDigit, rest.dropWhile CodePoint.isDigit)
    else ([], c :: rest)

/-- The words for the infinities, in lower case and without a sign. -/
def infinities : List Text := ["inf", "infinity"]

/-- The infinity that a word denotes. -/
def infinity? (t : Text) : Option Double :=
  let (negative, word) := Text.cutSign t
  if infinities.contains word.toLower then some (Double.infinity negative) else none

/-- The double that a cell denotes: blanks, a sign, digits with a point among them, an exponent and
blanks. -/
def read? (t : Text) : Option Double :=
  let (negative, rest) := Text.cutSign (t.dropWhile CodePoint.isAsciiBlank)
  let whole := rest.takeWhile CodePoint.isDigit
  let (decimals, rest) := places (rest.dropWhile CodePoint.isDigit)
  let counted := decimals.take (maxDigits - whole.length)
  match exponent? rest with
  | some (e, rest) =>
    if (whole ++ counted).isEmpty || !rest.all CodePoint.isAsciiBlank then infinity? t
    else
      let d := ofDigits ((whole ++ counted).take maxDigits)
      let skipped : Nat := whole.length - maxDigits
      some (scaled negative d (e + skipped - counted.length))
  | none => infinity? t

/-- The number of decimal places of a delivered number. -/
def decimalPlaces : Nat := 10

/-- A magnitude to ten places. The distance is rounded once before it is rounded to the last place;
a half goes up to an even last place, or to one. -/
def toPlaces (negative : Bool) (num den : Nat) : Double :=
  let whole := num / den
  let (num', den') := (Double.ofRatio false (num % den * Nat.pow 10 decimalPlaces) den).fraction
  let last := num' / den'
  let twice := 2 * (num' % den')
  let up := den' < twice || (twice = den' && (last = 0 || last % 2 = 1))
  Double.ofDecimal (negative && 0 < num)
    (whole * Nat.pow 10 decimalPlaces + (if up then last + 1 else last)) (-decimalPlaces)

/-- A magnitude to ten significant digits. -/
def toDigits (negative : Bool) (num den : Nat) : Double :=
  let place := Double.leadingPlace num den - 9
  if place < 0 then
    Double.ofDecimal negative (roundHalfEven (num * Nat.pow 10 place.natAbs) den) place
  else Double.ofDecimal negative (roundHalfEven num (den * Nat.pow 10 place.natAbs)) place

/-- A double as it is delivered: to ten places, and to ten significant digits when it is above
`10^16` or below `10^-15`. -/
def delivered? (d : Double) : Option Double :=
  match d.parts with
  | .finite negative .. =>
    let (num, den) := d.fraction
    if num ≠ 0 && (Nat.pow 10 16 * den < num || num * Nat.pow 10 15 < den) then
      some (toDigits negative num den)
    else some (toPlaces negative num den)
  | _ => none

end TypeSketch.Fraction
