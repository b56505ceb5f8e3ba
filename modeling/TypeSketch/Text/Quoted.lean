import TypeSketch.Text.Printable

/-!
# Quoting a text in a message

A text that is named in a message stands between quotes, with everything that has no visible form
spelled out.

* `Text.quoted`: the quoted text. It stands between single quotes, or between double ones when it
  holds single quotes and no double ones.
-/

namespace TypeSketch

/-- A code point between quotes of a kind. -/
def CodePoint.quotedIn (quote c : CodePoint) : Text :=
  if c = quote || c = '\\' then ['\\', c]
  else if c = '\n' then "\\n"
  else if c = '\r' then "\\r"
  else if c = '\t' then "\\t"
  else if c.isPrintable then [c]
  else if c.val < 0x100 then ("\\x" : Text) ++ Text.hex 2 c.val
  else if c.val < 0x10000 then ("\\u" : Text) ++ Text.hex 4 c.val
  else ("\\U" : Text) ++ Text.hex 8 c.val

/-- The quotes that a text is put between. -/
def Text.quoteFor (t : Text) : CodePoint :=
  if t.any (CodePoint.is '\'') && !t.any (CodePoint.is '"') then '"' else '\''

/-- The text between quotes, with everything spelled out that has no visible form. -/
def Text.quoted (t : Text) : Text :=
  let quote := t.quoteFor
  quote :: (t.flatMap (CodePoint.quotedIn quote) ++ [quote])

end TypeSketch
