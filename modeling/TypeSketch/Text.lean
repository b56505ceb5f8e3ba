/-!
# Text as a list of code points

Keys and strings of sample data may hold lone surrogates, which `Char` leaves out, so the text that
is inferred from, declared and printed here is a list of code points below `0x110000`.

* `Text.ofString`: the text of a literal, one code point per character.
* `Text.decimal`: the decimal numeral of a natural number.
* `Text.lt`: the order of names in a listing, code point by code point.
* `Text.splitOn_join`: cutting at a separator undoes joining with it.
-/

namespace TypeSketch

/-- A Unicode code point; the surrogates `0xD800` to `0xDFFF` are allowed. -/
structure CodePoint where
  /-- The number of the code point. -/
  val : Nat
  val_lt : val < 0x110000
deriving DecidableEq

namespace CodePoint

/-- The code point of a character. -/
def ofChar (c : Char) : CodePoint :=
  ⟨c.toNat, by
    have := c.valid
    unfold UInt32.isValidChar Nat.isValidChar at this
    show c.val.toNat < _
    omega⟩

instance : Coe Char CodePoint := ⟨ofChar⟩

/-- The code point with the given number; numbers out of range give the replacement character. -/
def ofNat (n : Nat) : CodePoint :=
  if h : n < 0x110000 then ⟨n, h⟩ else '\uFFFD'

instance : Inhabited CodePoint := ⟨ofNat 0⟩

/-- Whether a code point is the given character. -/
def is (ch : Char) (c : CodePoint) : Bool := c = ch

/-- One of `0` to `9`. -/
def isDigit (c : CodePoint) : Bool := 0x30 ≤ c.val && c.val ≤ 0x39

/-- The value of an ASCII digit. -/
def digitVal (c : CodePoint) : Nat := c.val - 0x30

/-- The value of a hexadecimal digit in either case. -/
def hexVal? (c : CodePoint) : Option Nat :=
  if c.isDigit then some c.digitVal
  else if 0x61 ≤ c.val && c.val ≤ 0x66 then some (c.val - 0x57)
  else if 0x41 ≤ c.val && c.val ≤ 0x46 then some (c.val - 0x37)
  else none

/-- A letter `a` to `z`. -/
def isLower (c : CodePoint) : Bool := 0x61 ≤ c.val && c.val ≤ 0x7A

/-- A letter `A` to `Z`. -/
def isUpper (c : CodePoint) : Bool := 0x41 ≤ c.val && c.val ≤ 0x5A

/-- Half of a surrogate pair standing on its own. -/
def isSurrogate (c : CodePoint) : Bool := 0xD800 ≤ c.val && c.val ≤ 0xDFFF

/-- The ASCII letters in lower case, everything else as it is. -/
def toLower (c : CodePoint) : CodePoint := if c.isUpper then ofNat (c.val + 0x20) else c

end CodePoint

/-- A sequence of code points. -/
abbrev Text := List CodePoint

namespace Text

/-- The text of a string, one code point per character. -/
def ofString (s : String) : Text := s.toList.map CodePoint.ofChar

instance : Coe String Text := ⟨ofString⟩

@[simp] theorem length_ofString (s : String) : (ofString s).length = s.length := by
  simp [ofString, String.length_toList]

/-- The string of a text; a lone surrogate becomes the replacement character. -/
def toString (t : Text) : String :=
  String.ofList (t.map fun c => if c.isSurrogate then '\uFFFD' else Char.ofNat c.val)

/-- The text that repeats one code point. -/
def times (n : Nat) (c : CodePoint) : Text := List.replicate n c

/-- Blanks. -/
def spaces (n : Nat) : Text := times n ' '

/-- The parts, one after another, with the separator between them. -/
def join (sep : Text) : List Text → Text
  | [] => []
  | [t] => t
  | t :: rest => t ++ sep ++ join sep rest

/-- The pieces of a text between the occurrences of one code point; there is always one. -/
def splitOn (sep : CodePoint) : Text → List Text
  | [] => [[]]
  | c :: rest =>
    if c = sep then [] :: splitOn sep rest
    else match splitOn sep rest with
      | [] => [[c]]
      | piece :: pieces => (c :: piece) :: pieces

theorem splitOn_ne_nil (sep : CodePoint) (t : Text) : splitOn sep t ≠ [] := by
  cases t with
  | nil => simp [splitOn]
  | cons c rest =>
    rw [splitOn]
    split
    · simp
    · split <;> simp

theorem splitOn_of_not_mem {sep : CodePoint} {t : Text} (h : sep ∉ t) : splitOn sep t = [t] := by
  induction t with
  | nil => rfl
  | cons c rest ih =>
    have hc : c ≠ sep := fun e => h (by simp [e])
    have hr : sep ∉ rest := fun e => h (by simp [e])
    simp [splitOn, hc, ih hr]

theorem splitOn_append {sep : CodePoint} {t : Text} (h : sep ∉ t) (rest : Text) :
    splitOn sep (t ++ sep :: rest) = t :: splitOn sep rest := by
  induction t with
  | nil => simp [splitOn]
  | cons c t ih =>
    have hc : c ≠ sep := fun e => h (by simp [e])
    have ht : sep ∉ t := fun e => h (by simp [e])
    simp [splitOn, hc, ih ht]

/-- **Cutting undoes joining** when no part holds the separator. -/
theorem splitOn_join {sep : CodePoint} {parts : List Text} (hne : parts ≠ [])
    (h : ∀ t ∈ parts, sep ∉ t) : splitOn sep (join [sep] parts) = parts := by
  induction parts with
  | nil => exact absurd rfl hne
  | cons t rest ih =>
    cases rest with
    | nil => exact splitOn_of_not_mem (h t (by simp))
    | cons u rest =>
      have hu := ih (by simp) fun v hv => h v (List.mem_cons_of_mem _ hv)
      rw [join, List.append_assoc, List.singleton_append, splitOn_append (h t (by simp)), hu]
      simp

/-- The decimal digits of a number put before a text. -/
def decimalOnto (n : Nat) (acc : Text) : Text :=
  if n < 10 then CodePoint.ofNat (0x30 + n) :: acc
  else decimalOnto (n / 10) (CodePoint.ofNat (0x30 + n % 10) :: acc)
termination_by n

/-- The decimal numeral of a natural number, without leading zeros. -/
def decimal (n : Nat) : Text := decimalOnto n []

/-- The decimal numeral of an integer. -/
def decimalInt : Int → Text
  | .ofNat n => decimal n
  | .negSucc n => '-' :: decimal (n + 1)

/-- The number that a run of ASCII digits denotes. -/
def natOfDigits (digits : Text) : Nat := digits.foldl (fun n d => n * 10 + d.digitVal) 0

/-- Whether a minus sign is in front of a numeral, and the numeral without its sign. -/
def cutSign : Text → Bool × Text
  | [] => (false, [])
  | c :: rest =>
    if c = '-' then (true, rest)
    else if c = '+' then (false, rest)
    else (false, c :: rest)

theorem length_cutSign_le (t : Text) : (cutSign t).2.length ≤ t.length := by
  unfold cutSign
  split
  · exact Nat.le_refl _
  · split
    · simp
    · split <;> simp

/-- The hexadecimal digit, in lower case, of a number below sixteen. -/
def hexDigit (n : Nat) : CodePoint := CodePoint.ofNat (if n < 10 then 0x30 + n else 0x57 + n)

/-- The last `width` hexadecimal digits of a number. -/
def hex (width n : Nat) : Text :=
  match width with
  | 0 => []
  | w + 1 => hex w (n / 16) ++ [hexDigit (n % 16)]

/-- The order of texts by their first differing code point, a shorter text before its extensions. -/
def lt : Text → Text → Bool
  | [], [] => false
  | [], _ :: _ => true
  | _ :: _, [] => false
  | a :: s, b :: t => a.val < b.val || (a = b && lt s t)

theorem lt_irrefl (t : Text) : lt t t = false := by
  induction t with
  | nil => rfl
  | cons c t ih => simp [lt, ih]

/-- Whether a text begins with another. -/
def startsWith (t start : Text) : Bool := start.isPrefixOf t

/-- Whether a text ends with another. -/
def endsWith (t tail : Text) : Bool := tail.isSuffixOf t

/-- Whether a text holds another as a run of consecutive code points. -/
def contains (t part : Text) : Bool :=
  part.isPrefixOf t || match t with
    | [] => false
    | _ :: rest => contains rest part

/-- The text without the longest run at either end of code points that a class holds. -/
def stripBy (p : CodePoint → Bool) (t : Text) : Text :=
  ((t.dropWhile p).reverse.dropWhile p).reverse

/-- The text in lower case, as far as the ASCII letters go. -/
def toLower (t : Text) : Text := t.map CodePoint.toLower

/-- The text with blanks behind it up to a number of code points. -/
def padRight (width : Nat) (t : Text) : Text := t ++ spaces (width - t.length)

end Text

end TypeSketch
