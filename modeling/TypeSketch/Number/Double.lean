import TypeSketch.Text
import TypeSketch.Number.Rounding

/-!
# Numbers of double precision

A number with a fraction or an exponent is kept as the 64 bits of the nearest IEEE 754 double, so
two such numbers are the same exactly when their bits are.

* `Double.ofRatio`: the double nearest to a quotient of naturals, a tie going to the even one.
* `Double.ofDecimal`: the double nearest to `m · 10^e`.
* `Double.parts`: what a double denotes.
-/

namespace TypeSketch

/-- A number of double precision, by its bits. -/
structure Double where
  bits : UInt64
deriving DecidableEq

namespace Double

/-- The bits of positive infinity. -/
def infinityBits : Nat := 0x7FF0000000000000

/-- The double with a sign and the bits of a magnitude. -/
def signed (negative : Bool) (magnitude : Nat) : Double :=
  ⟨UInt64.ofNat (if negative then magnitude + Nat.pow 2 63 else magnitude)⟩

/-- Zero with a sign. -/
def zero (negative : Bool) : Double := signed negative 0

/-- Infinity with a sign. -/
def infinity (negative : Bool) : Double := signed negative infinityBits

/-- The quiet NaN. -/
def nan : Double := ⟨0x7FF8000000000000⟩

/-- The double nearest to `num / den`, infinity from half a unit above the largest one on. The
exponent is chosen so that the significand has 53 bits, or fewer at the smallest exponent; a
significand that rounds up to 54 bits carries into the exponent field. -/
def ofRatio (negative : Bool) (num den : Nat) : Double :=
  if num = 0 then zero negative
  else
    let scale (e : Int) : Nat × Nat :=
      if e < 0 then (num <<< e.natAbs, den) else (num, den <<< e.natAbs)
    let guess : Int := (Nat.log2 num : Int) - Nat.log2 den - 52
    -- The guess from the lengths may be one too high, never too low.
    let e := if (scale guess).1 < (scale guess).2 <<< 52 then guess - 1 else guess
    let e := max e (-1074)
    let significand := roundHalfEven (scale e).1 (scale e).2
    let magnitude := (e + 1074).toNat <<< 52 + significand
    signed negative (min magnitude infinityBits)

/-- The number of decimal digits of a natural number. -/
def digitCount (n : Nat) : Nat := (Text.decimal n).length

/-- The double nearest to `m · 10^e`. Exponents far beyond the range of doubles are settled by
the place of the first digit. -/
def ofDecimal (negative : Bool) (m : Nat) (e : Int) : Double :=
  if m = 0 then zero negative
  else
    let place := e + digitCount m
    if 400 < place then infinity negative
    else if place < -400 then zero negative
    else if e < 0 then ofRatio negative m (Nat.pow 10 e.natAbs)
    else ofRatio negative (m * Nat.pow 10 e.natAbs) 1

/-- What a double denotes. -/
inductive Parts where
  | nan
  | infinite (negative : Bool)
  /-- The number `± significand · 2^exponent`. -/
  | finite (negative : Bool) (significand : Nat) (exponent : Int)
deriving DecidableEq

/-- Whether the sign bit is set. -/
def isNegative (d : Double) : Bool := Nat.pow 2 63 ≤ d.bits.toNat

/-- What the bits of a double denote. -/
def parts (d : Double) : Parts :=
  let magnitude : Nat := d.bits.toNat % Nat.pow 2 63
  let field : Nat := magnitude / Nat.pow 2 52
  let fraction : Nat := magnitude % Nat.pow 2 52
  if infinityBits < magnitude then .nan
  else if magnitude = infinityBits then .infinite d.isNegative
  else if field = 0 then .finite d.isNegative fraction (-1074)
  else .finite d.isNegative (fraction + Nat.pow 2 52) ((field : Int) - 1075)

/-- The magnitude of a finite double as a fraction. -/
def fraction (d : Double) : Nat × Nat :=
  match d.parts with
  | .finite _ significand exponent =>
    if exponent < 0 then (significand, Nat.pow 2 exponent.natAbs)
    else (significand * Nat.pow 2 exponent.natAbs, 1)
  | _ => (0, 1)

/-- Whether a double is a number, infinities not counted. -/
def isFinite (d : Double) : Bool :=
  match d.parts with
  | .finite .. => true
  | _ => false

/-- Whether a double is zero, of either sign. -/
def isZero (d : Double) : Bool := d.bits.toNat % Nat.pow 2 63 = 0

end Double

end TypeSketch
