import TypeSketch.Number.Double

/-!
# The shortest decimal that reads back

A double is written with the fewest decimal digits that still denote it, and among those with the
digits nearest to it.

* `Double.shortest`: those digits and the place of the first one.
* `Double.decimalText`: the numeral, positional from `10^-4` up to below `10^16`.
-/

namespace TypeSketch.Double

/-- The exponent of the leading decimal digit of `num / den`. -/
def leadingPlace (num den : Nat) : Int :=
  if den ≤ num then (digitCount (num / den) : Int) - 1
  else -(digitCount ((den + num - 1) / num - 1) : Int)

/-- A positive number as a fraction, with the numbers halfway to its two neighbours over the same
denominator, and whether those halves still read as the number. -/
structure Span where
  num : Nat
  low : Nat
  high : Nat
  den : Nat
  closed : Bool

/-- The numbers that round to `significand · 2^exponent`. Below a power of two the neighbour is
only half as far away. -/
def Span.of (significand : Nat) (exponent : Int) : Span :=
  let narrow := significand = Nat.pow 2 52 && exponent ≠ -1074
  let unit := if exponent < 0 then 1 else Nat.pow 2 exponent.natAbs
  let den := if exponent < 0 then 4 * Nat.pow 2 exponent.natAbs else 4
  { num := 4 * significand * unit
    low := (4 * significand - if narrow then 1 else 2) * unit
    high := (4 * significand + 2) * unit
    den := den
    closed := significand % 2 = 0 }

/-- Whether the number `num' / den'` lies in the span. -/
def Span.holds (s : Span) (num' den' : Nat) : Bool :=
  let x := num' * s.den
  let low := s.low * den'
  let high := s.high * den'
  (low < x && x < high) || (s.closed && (x = low || x = high))

/-- The multiple of `10^place` in the span that is nearest to its number, as a factor. -/
def Span.nearest? (s : Span) (place : Int) : Option Nat :=
  let num := if place < 0 then s.num * Nat.pow 10 place.natAbs else s.num
  let den := if place < 0 then s.den else s.den * Nat.pow 10 place.natAbs
  let inside (k : Nat) : Bool :=
    if place < 0 then s.holds k (Nat.pow 10 place.natAbs)
    else s.holds (k * Nat.pow 10 place.natAbs) 1
  let below := num / den
  let nearer := roundHalfEven num den
  let farther := if nearer = below then below + 1 else below
  if inside nearer then some nearer
  else if inside farther then some farther
  else none

/-- The nearest number of at most `n + 1`, …, seventeen digits that lies in the span: its digits
and the place of the last one. -/
def Span.fewestDigits (s : Span) (top : Int) (n : Nat) : Nat → Nat × Int
  | 0 => (s.num / s.den, 0)
  | fuel + 1 =>
    let place := top - n
    match s.nearest? place with
    | some k => (k, place)
    | none => s.fewestDigits top (n + 1) fuel

/-- The shortest decimal digits of a positive double, and the place of the first of them. -/
def shortest (significand : Nat) (exponent : Int) : Text × Int :=
  let s := Span.of significand exponent
  let (k, place) := s.fewestDigits (leadingPlace s.num s.den) 0 17
  let digits := Text.decimal k
  ((digits.reverse.dropWhile (CodePoint.is '0')).reverse, place + digits.length - 1)

/-- The numeral with the given digits, the first at the given place. -/
def layOut (digits : Text) (place : Int) : Text :=
  if -4 ≤ place && place < 16 then
    if place < 0 then
      ("0." : Text) ++ Text.times (place.natAbs - 1) '0' ++ digits
    else
      let whole := place.toNat + 1
      let front := digits.take whole ++ Text.times (whole - digits.length) '0'
      let back := digits.drop whole
      front ++ "." ++ (if back.isEmpty then ("0" : Text) else back)
  else
    let mantissa : Text := match digits with
      | [d] => [d]
      | d :: rest => d :: '.' :: rest
      | [] => []
    let size := Text.decimal place.natAbs
    mantissa ++ (if place < 0 then "e-" else "e+") ++ Text.times (2 - size.length) '0' ++ size

/-- The numeral of a double: the fewest digits that read back, positional between `10^-4` and
`10^16`, with `.0` behind a whole number and at least two digits in an exponent. -/
def decimalText (d : Double) : Text :=
  match d.parts with
  | .nan => "nan"
  | .infinite negative => if negative then "-inf" else "inf"
  | .finite negative significand exponent =>
    let sign : Text := if negative then "-" else ""
    if significand = 0 then sign ++ "0.0"
    else
      let (digits, place) := shortest significand exponent
      sign ++ layOut digits place

end TypeSketch.Double
