import TypeSketch.Text
import TypeSketch.Text.Ranges

/-!
# White space

The Unicode white space that may surround a text without being part of it, the four information
separators `U+001C` to `U+001F` included.

* `CodePoint.isBlank`: membership in the class.
* `Text.strip`: a text without the white space at its ends.
-/

namespace TypeSketch

/-- White space: what has the property `White_Space` or separates paragraphs or segments. -/
def blanks : Ranges :=
  [(0x9, 0xd), (0x1c, 0x20), (0x85, 0x85), (0xa0, 0xa0), (0x1680, 0x1680), (0x2000, 0x200a),
   (0x2028, 0x2029), (0x202f, 0x202f), (0x205f, 0x205f), (0x3000, 0x3000)]

/-- Whether a code point is white space. -/
def CodePoint.isBlank (c : CodePoint) : Bool := blanks.contains c.val

/-- White space among the ASCII characters. -/
def CodePoint.isAsciiBlank (c : CodePoint) : Bool := c = ' ' || (9 ≤ c.val && c.val ≤ 13)

theorem CodePoint.isBlank_of_isAsciiBlank {c : CodePoint} (h : c.isAsciiBlank) : c.isBlank := by
  rcases c with ⟨n, hn⟩
  simp only [isAsciiBlank, Bool.or_eq_true, decide_eq_true_eq, Bool.and_eq_true] at h
  rcases h with h | ⟨h1, h2⟩
  · rw [h]; decide
  · simp [isBlank, blanks, Ranges.contains, h1, h2]

/-- The text without the white space at its ends. -/
def Text.strip (t : Text) : Text := t.stripBy CodePoint.isBlank

/-- Whether a text holds nothing but white space. -/
def Text.isBlank (t : Text) : Bool := t.all CodePoint.isBlank

end TypeSketch
