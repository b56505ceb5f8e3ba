import TypeSketch.Text.Pattern

/-!
# Scalars of YAML

A text is written plain where it reads back as that text, else between single quotes, and with
escapes between double quotes where those do not do. Long texts are folded at a blank.

* `Yaml.Style.of`: how a text is written.
* `Yaml.isSimpleKey`: whether a text can stand in front of a colon on one line.
* `Yaml.scalar`: the written text.
-/

namespace TypeSketch.Yaml

open Pattern

/-! ### Plain texts with another meaning -/

/-- A sign or nothing. -/
def signPattern : Pattern := optional (among "-+")

/-- Digits with underscores among them, or nothing. -/
def groupedDigits : Pattern := many (among "0123456789_")

/-- A digit of a place with sixty values, and the colon in front. -/
def sixtieth : Pattern := row [char ':', optional (among "012345"), digit]

/-- Integers: binary, octal, decimal, hexadecimal or with places of sixty values. -/
def integerPattern : Pattern :=
  oneOf
    [row [signPattern, word "0b", atLeastOne (among "01_")],
     row [signPattern, char '0', atLeastOne (among "01234567_")],
     row [signPattern, char '0'],
     row [signPattern, among "123456789", groupedDigits],
     row [signPattern, word "0x", atLeastOne (among "0123456789abcdefABCDEF_")],
     row [signPattern, among "123456789", groupedDigits, atLeastOne sixtieth]]

/-- An exponent with a sign, or nothing. -/
def exponentPattern : Pattern := optional (row [among "eE", among "-+", atLeastOne digit])

/-- Numbers with a point. -/
def fractionPattern : Pattern :=
  oneOf
    [row [signPattern, digit, groupedDigits, char '.', groupedDigits, exponentPattern],
     row [char '.', digit, groupedDigits, exponentPattern],
     row [signPattern, digit, groupedDigits, atLeastOne sixtieth, char '.', groupedDigits],
     row [signPattern, char '.', oneOf [word "inf", word "Inf", word "INF"]],
     row [char '.', oneOf [word "nan", word "NaN", word "NAN"]]]

/-- One or two digits. -/
def oneOrTwo : Pattern := row [digit, optional digit]

/-- Dates, and points in time with an offset or without. -/
def timePattern : Pattern :=
  let blank := among " \t"
  let minutes := row [char ':', digit, digit]
  let offset := oneOf [char 'Z', row [among "-+", oneOrTwo, optional minutes]]
  oneOf
    [row [digit, digit, digit, digit, char '-', digit, digit, char '-', digit, digit],
     row [digit, digit, digit, digit, char '-', oneOrTwo, char '-', oneOrTwo,
       oneOf [among "Tt", atLeastOne blank], oneOrTwo, minutes, minutes,
       optional (row [char '.', many digit]), optional (row [many blank, offset])]]

/-- The words for truth values, null, merging and defaults. -/
def words : List Text :=
  ["yes", "Yes", "YES", "no", "No", "NO", "true", "True", "TRUE", "false", "False", "FALSE",
   "on", "On", "ON", "off", "Off", "OFF", "", "~", "null", "Null", "NULL", "<<", "="]

/-- Whether a plain text is read as something else than a text. -/
def isSpecial (t : Text) : Bool :=
  words.contains t || integerPattern.accepts t || fractionPattern.accepts t || timePattern.accepts t

/-! ### The style of a text -/

/-- A printable ASCII character. -/
def isPrintable (c : CodePoint) : Bool := 0x20 ≤ c.val && c.val ≤ 0x7E

/-- The code points that end a line. -/
def isBreak (c : CodePoint) : Bool :=
  c = '\n' || c.val = 0x85 || c.val = 0x2028 || c.val = 0x2029

/-- The characters that mean something at the start of a plain text. -/
def indicators : Text := "#,[]\x7b\x7d&*!|>'\"%@\u0060"

/-- Whether a text begins as no plain text may. -/
def startsBadly (t : Text) : Bool :=
  t.startsWith "---" || t.startsWith "..." ||
    match t with
    | [] => true
    | [c] => c ∈ indicators || c = '?' || c = '-'
    | c :: d :: _ => c ∈ indicators || ((c = '?' || c = '-') && d = ' ')

/-- Whether a colon in front of a blank or the end, or a number sign behind a blank, is in a text.
-/
def holdsMark : Text → Bool
  | [] => false
  | [c] => c = ':'
  | c :: d :: rest => (c = ':' && d = ' ') || (c = ' ' && d = '#') || holdsMark (d :: rest)

/-- Whether a text is read back when nothing is put around it. -/
def isPlain (t : Text) : Bool :=
  t.all isPrintable && t.head? ≠ some ' ' && t.getLast? ≠ some ' ' && !startsBadly t &&
    !holdsMark t && !isSpecial t

/-- Whether a text has a blank next to a line feed, with the feed or the blank in front. -/
def hasLooseBlank : Text → Bool
  | [] => false
  | [_] => false
  | c :: d :: rest => (c = '\n' && d = ' ') || (c = ' ' && d = '\n') || hasLooseBlank (d :: rest)

/-- How a text is written. -/
inductive Style where
  | plain
  | single
  | double
deriving DecidableEq

/-- How a text is written. -/
def Style.of (t : Text) : Style :=
  if isPlain t then .plain
  else if t.all (fun c => isPrintable c || c = '\n') && !hasLooseBlank t then .single
  else .double

/-- Whether a text can stand in front of a colon on one line: it must have a line of its own, and
with its tag it must be shorter than 128. -/
def isSimpleKey (t : Text) : Bool := !t.isEmpty && !t.any isBreak && t.length < 123

/-! ### Writing -/

/-- The columns of a line before it is folded. -/
def lineWidth : Nat := 80

/-- The start of a line. -/
def newline (indent : Nat) : Text := '\n' :: Text.spaces indent

/-- Whether a line is to be folded at a column. -/
def full (fold : Option Nat) (column : Nat) : Bool := fold.isSome && lineWidth < column

/-- The rest of a text that is plain or between single quotes, given how a code point is written,
the column of what is written, whether that is nothing yet, and the blanks and line feeds behind it.
A single blank where the line is full becomes a fold; line feeds are written once more than there
are. -/
def flow (write : CodePoint → Text) (fold : Option Nat) (column : Nat) (first : Bool)
    (blanks feeds : Nat) : Text → Text
  | [] =>
    Text.spaces blanks ++
      (if 0 < feeds then Text.times feeds '\n' ++ newline (fold.getD 0) else [])
  | c :: rest =>
    if c = ' ' then flow write fold column first (blanks + 1) feeds rest
    else if c = '\n' then flow write fold column first blanks (feeds + 1) rest
    else
      let written := write c
      if 0 < feeds then
        -- No blank lies next to a line feed here, so there are none to write.
        Text.times feeds '\n' ++ newline (fold.getD 0) ++ written ++
          flow write fold (fold.getD 0 + written.length) false 0 0 rest
      else if blanks = 1 && full fold column && !first then
        newline (fold.getD 0) ++ written ++
          flow write fold (fold.getD 0 + written.length) false 0 0 rest
      else
        Text.spaces blanks ++ written ++
          flow write fold (column + blanks + written.length) false 0 0 rest

/-- A code point between single quotes. -/
def doubled (c : CodePoint) : Text := if c = '\'' then "''" else [c]

/-- The escapes by a letter. -/
def letterEscapes : List (Nat × Char) :=
  [(0, '0'), (7, 'a'), (8, 'b'), (9, 't'), (0xA, 'n'), (0xB, 'v'), (0xC, 'f'), (0xD, 'r'),
   (0x1B, 'e'), (0x22, '"'), (0x5C, '\\'), (0x85, 'N'), (0xA0, '_'), (0x2028, 'L'), (0x2029, 'P')]

/-- A hexadecimal numeral of a width in capital letters. -/
def capitalHex (width n : Nat) : Text :=
  (Text.hex width n).map fun c => if c.isLower then CodePoint.ofNat (c.val - 0x20) else c

/-- The escape of a code point between double quotes, if it needs one. -/
def escape? (c : CodePoint) : Option Text :=
  match letterEscapes.find? fun e => e.1 = c.val with
  | some (_, letter) => some ("\\" ++ [CodePoint.ofChar letter])
  | none =>
    if isPrintable c then none
    else if c.val < 0x100 then some ("\\x" ++ capitalHex 2 c.val)
    else if c.val < 0x10000 then some ("\\u" ++ capitalHex 4 c.val)
    else some ("\\U" ++ capitalHex 8 c.val)

/-- The rest of a text between double quotes, given the column, whether nothing is written yet, and
whether what is written ends with an escape. A full line is folded in front of a blank or behind an
escape, though not in front of the last code point or behind it. -/
def escaped (fold : Option Nat) (column : Nat) (first fresh : Bool) : Text → Text
  | [] => []
  | c :: rest =>
    let start : Text := '\\' :: newline (fold.getD 0)
    let mayFold := !first && !rest.isEmpty
    match escape? c with
    | some e =>
      let column := column + e.length
      if mayFold && full fold (column - 1) then
        -- A blank at the start of a line is lost on reading unless a backslash stands in front.
        let guard : Text := if rest.head? = some (CodePoint.ofChar ' ') then "\\" else ""
        e ++ start ++ guard ++ escaped fold (fold.getD 0 + guard.length) false true rest
      else e ++ escaped fold column false true rest
    | none =>
      if mayFold && (c = ' ' || fresh) && full fold column then
        let guard : Text := if c = ' ' then "\\" else ""
        start ++ guard ++ c :: escaped fold (fold.getD 0 + guard.length + 1) false false rest
      else c :: escaped fold (column + 1) false false rest

/-- A written text that begins at a column, folded with an indent or not at all. -/
def scalar (fold : Option Nat) (column : Nat) (t : Text) : Text :=
  match Style.of t with
  | .plain => flow (fun c => [c]) fold column true 0 0 t
  | .single => ("'" : Text) ++ flow doubled fold (column + 1) true 0 0 t ++ "'"
  | .double => ("\"" : Text) ++ escaped fold (column + 1) true true t ++ "\""

end TypeSketch.Yaml
