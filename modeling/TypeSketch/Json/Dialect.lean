import TypeSketch.Text.Utf8
import TypeSketch.Value

/-!
# The two dialects of JSON

A text at hand is read leniently; a document that is streamed from a file is read strictly, byte by
byte. They differ in white space, in the words for special numbers, in what a broken number
means, in the numbers they can hold, and in how they take escaped surrogates.

* `Dialect`: the two dialects and what sets them apart.
* `Mishap`: why reading stops, and where.
* `Problem.message`: the words for a syntax error.
-/

namespace TypeSketch.Json

/-- How JSON is read. -/
inductive Dialect where
  /-- A whole text, as code points. -/
  | lenient
  /-- A document from a file, as bytes. -/
  | strict
deriving DecidableEq

/-- What can be wrong with the syntax of a text. -/
inductive Problem where
  | byteOrderMark
  | expectedValue
  | expectedName
  | expectedColon
  | expectedComma
  | extraData
  | openString
  | controlCharacter
  | badEscape
  | badUnicodeEscape
deriving DecidableEq

/-- The words for a syntax error. -/
def Problem.message : Problem → Text
  | byteOrderMark => "Unexpected UTF-8 BOM (decode using utf-8-sig)"
  | expectedValue => "Expecting value"
  | expectedName => "Expecting property name enclosed in double quotes"
  | expectedColon => "Expecting ':' delimiter"
  | expectedComma => "Expecting ',' delimiter"
  | extraData => "Extra data"
  | openString => "Unterminated string starting at"
  | controlCharacter => "Invalid control character at"
  | badEscape => "Invalid \\escape"
  | badUnicodeEscape => "Invalid \\uXXXX escape"

/-- Why reading stops. -/
inductive Mishap where
  /-- The syntax is wrong where the rest begins. -/
  | problem (p : Problem) (rest : Text)
  /-- An integer has more digits than are converted. -/
  | longInteger (digits : Nat)
  /-- Arrays and objects lie too deep within one another. -/
  | tooDeep
  /-- A number is beyond what the strict dialect holds. -/
  | outOfRange
  /-- The bytes of a string are not UTF-8. -/
  | badBytes (flaw : Utf8.Flaw)

namespace Dialect

/-- White space between tokens. The strict dialect also takes vertical tabs and form feeds. -/
def isBlank : Dialect → CodePoint → Bool
  | lenient, c => c = ' ' || c = '\t' || c = '\n' || c = '\r'
  | strict, c => c = ' ' || (9 ≤ c.val && c.val ≤ 13)

/-- The text without the white space in front. -/
def skipBlanks (d : Dialect) (t : Text) : Text := t.dropWhile d.isBlank

theorem length_skipBlanks_le (d : Dialect) (t : Text) : (d.skipBlanks t).length ≤ t.length := by
  rw [skipBlanks]
  exact (List.dropWhile_suffix _).length_le

/-- The words that denote a value in either dialect. -/
def plainWords : List (Text × Value) :=
  [("null", .null), ("true", .bool true), ("false", .bool false)]

/-- The words for the special numbers. -/
def numberWords : List (Text × Value) :=
  [("NaN", .number (.double .nan)), ("Infinity", .number (.double (.infinity false))),
    ("-Infinity", .number (.double (.infinity true)))]

/-- The words that denote a value. -/
def words : Dialect → List (Text × Value)
  | lenient => plainWords ++ numberWords
  | strict => plainWords

/-- The most digits of an integer that the lenient dialect converts. -/
def maxDigits : Nat := 4300

/-- The integer with a sign and some digits. The strict dialect holds those of less than `2^63`
in magnitude. -/
def integer (d : Dialect) (negative : Bool) (digits : Text) : Except Mishap Value :=
  match d with
  | lenient =>
    if maxDigits < digits.length then .error (.longInteger digits.length)
    else
      let n : Int := Text.natOfDigits digits
      .ok (.int (if negative then -n else n))
  | strict =>
    if 19 < digits.length then .error .outOfRange
    else
      let n := Text.natOfDigits digits
      if n < Nat.pow 2 63 then .ok (.int (if negative then -(n : Int) else n))
      else .error .outOfRange

/-- A number that is not an integer. The strict dialect has no infinities. -/
def double (d : Dialect) (x : Double) : Except Mishap Value :=
  match d with
  | lenient => .ok (.number (.double x))
  | strict => if x.isFinite then .ok (.number (.double x)) else .error .outOfRange

/-- How deep arrays and objects may lie within one another. -/
def maxNesting : Dialect → Option Nat
  | lenient => some 990
  | strict => none

/-- Whether one more array or object may be opened inside some open ones. -/
def mayNest (d : Dialect) (openNow : Nat) : Bool :=
  match d.maxNesting with
  | some limit => openNow < limit
  | none => true

end Dialect

end TypeSketch.Json
