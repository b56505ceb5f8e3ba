import TypeSketch.Number.Shortest
import TypeSketch.Value

/-!
# Writing JSON

* `quote`: a text as a string literal of ASCII characters alone.
* `compact`: a value on one line, with a blank behind each comma and colon.
* `indented`: a value over several lines, two blanks deeper for each level.
-/

namespace TypeSketch.Json

/-- A `\u` escape of a number of sixteen bits. -/
def unicodeUnit (n : Nat) : Text := ("\\u" : Text) ++ Text.hex 4 n

/-- The escape that a string literal always uses for a code point, if there is one. -/
def escape? (c : CodePoint) : Option Text :=
  if c = '"' then some "\\\""
  else if c = '\\' then some "\\\\"
  else if c = '\n' then some "\\n"
  else if c = '\r' then some "\\r"
  else if c = '\t' then some "\\t"
  else if c.val = 8 then some "\\b"
  else if c.val = 12 then some "\\f"
  else if c.val < 0x20 then some (unicodeUnit c.val)
  else none

/-- A code point in a literal of ASCII characters: beyond the sixteen bits it is a surrogate pair.
-/
def escapeAscii (c : CodePoint) : Text :=
  match escape? c with
  | some e => e
  | none =>
    if c.val < 0x7F then [c]
    else if c.val < 0x10000 then unicodeUnit c.val
    else
      let n := c.val - 0x10000
      unicodeUnit (0xD800 + n / 0x400) ++ unicodeUnit (0xDC00 + n % 0x400)

/-- A code point in a literal that keeps what need not be escaped. -/
def escapeLeast (c : CodePoint) : Text := (escape? c).getD [c]

/-- The string literal of a text, with some way to write a code point. -/
def quoteBy (escape : CodePoint → Text) (t : Text) : Text :=
  ("\"" : Text) ++ t.flatMap escape ++ "\""

/-- The string literal of a text, of ASCII characters alone. -/
def quote (t : Text) : Text := quoteBy escapeAscii t

/-- The numeral of a number. -/
def numeral : Numeral → Text
  | .int n => Text.decimalInt n
  | .double d =>
    match d.parts with
    | .nan => "NaN"
    | .infinite negative => if negative then "-Infinity" else "Infinity"
    | .finite .. => d.decimalText

/-- A value without parts. An object or array gives nothing here, and so does what is not JSON. -/
def leaf (escape : CodePoint → Text) : Value → Text
  | .null => "null"
  | .bool true => "true"
  | .bool false => "false"
  | .number n => numeral n
  | .string t => quoteBy escape t
  | .array _ | .object _ | .foreign _ => []

mutual

/-- A value on one line. -/
def compact : Value → Text
  | .array elements => ("[" : Text) ++ compactElements elements ++ "]"
  | .object members => ("\x7b" : Text) ++ compactMembers members ++ "\x7d"
  | v => leaf escapeAscii v

/-- The elements of an array on one line. -/
def compactElements : List Value → Text
  | [] => []
  | [v] => compact v
  | v :: w :: rest => compact v ++ ", " ++ compactElements (w :: rest)

/-- The members of an object on one line. -/
def compactMembers : List (Text × Value) → Text
  | [] => []
  | [(name, v)] => quote name ++ ": " ++ compact v
  | (name, v) :: m :: rest => quote name ++ ": " ++ compact v ++ ", " ++ compactMembers (m :: rest)

end

/-- The start of a line at a level. -/
def newline (level : Nat) : Text := '\n' :: Text.spaces (2 * level)

mutual

/-- A value over several lines, at a level. -/
def indentedAt (level : Nat) : Value → Text
  | .array [] => "[]"
  | .array elements =>
    ("[" : Text) ++ newline (level + 1) ++ indentedElements (level + 1) elements ++
      newline level ++ "]"
  | .object [] => ("\x7b\x7d" : Text)
  | .object members =>
    ("\x7b" : Text) ++ newline (level + 1) ++ indentedMembers (level + 1) members ++
      newline level ++ "\x7d"
  | v => leaf escapeLeast v

/-- The elements of an array, one a line. -/
def indentedElements (level : Nat) : List Value → Text
  | [] => []
  | [v] => indentedAt level v
  | v :: w :: rest =>
    indentedAt level v ++ "," ++ newline level ++ indentedElements level (w :: rest)

/-- The members of an object, one a line. -/
def indentedMembers (level : Nat) : List (Text × Value) → Text
  | [] => []
  | [(name, v)] => quoteBy escapeLeast name ++ ": " ++ indentedAt level v
  | (name, v) :: m :: rest =>
    quoteBy escapeLeast name ++ ": " ++ indentedAt level v ++ "," ++ newline level ++
      indentedMembers level (m :: rest)

end

/-- A value over several lines. -/
def indented (v : Value) : Text := indentedAt 0 v

end TypeSketch.Json
