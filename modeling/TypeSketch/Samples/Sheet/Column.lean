import TypeSketch.Samples.Sheet.Fraction
import TypeSketch.Samples.Sheet.Rows
import TypeSketch.Value

/-!
# The columns of a sheet

The cells of a column are of one kind: integers, numbers, truth values, or else texts. Cells that
say that nothing is known are gaps in any of them.

* `Column.values`: what the cells of a column denote.
* `Column.gapped_map_isNone`: the gaps of a column are its missing cells, whatever it holds.
-/

namespace TypeSketch.Sheet

/-- The words that say that nothing is known. -/
def missingWords : List Text :=
  ["", "#N/A", "#N/A N/A", "#NA", "-1.#IND", "-1.#QNAN", "-NaN", "-nan", "1.#IND", "1.#QNAN",
   "<NA>", "N/A", "NA", "NULL", "NaN", "None", "n/a", "nan", "null"]

/-- Whether nothing is known of a cell. -/
def isMissing (c : Cell) : Bool := missingWords.contains c

/-- Why a cell is not read as an integer. -/
inductive Obstacle where
  | notInteger
  | outOfRange

/-- The sign of an integer, its magnitude, and whether its cell holds nothing else. -/
def integer? (c : Cell) : Option (Bool × Nat × Bool) :=
  let (negative, rest) := Text.cutSign (c.dropWhile CodePoint.isAsciiBlank)
  let digits := rest.takeWhile CodePoint.isDigit
  if digits.isEmpty then none
  else some (negative, Text.natOfDigits digits,
    (rest.dropWhile CodePoint.isDigit).all CodePoint.isAsciiBlank)

/-- The largest signed integer of 64 bits. -/
def maxSigned : Nat := Nat.pow 2 63 - 1

/-- The signed integer of 64 bits that a cell denotes. The range is looked at first. -/
def signed (c : Cell) : Except Obstacle Int :=
  match integer? c with
  | none => .error .notInteger
  | some (negative, n, alone) =>
    if maxSigned + (if negative then 1 else 0) < n then .error .outOfRange
    else if alone then .ok (if negative then -n else n)
    else .error .notInteger

/-- The unsigned integer of 64 bits that a cell denotes, or nothing for whatever has a minus sign.
-/
def unsigned (c : Cell) : Except Obstacle (Option Nat) :=
  if Text.startsWith (c.dropWhile CodePoint.isAsciiBlank) "-" then .ok none
  else match integer? c with
    | none => .error .notInteger
    | some (_, n, alone) =>
      if Nat.pow 2 64 ≤ n then .error .outOfRange
      else if alone then .ok (some n)
      else .error .notInteger

/-- The truth value that a cell denotes. -/
def truth? (c : Cell) : Option Bool :=
  if c.toLower = Text.ofString "true" then some true
  else if c.toLower = Text.ofString "false" then some false
  else none

/-- What the cells of a column denote, if all but its gaps can be read. -/
def gapped {m : Type → Type} {α : Type} [Monad m] (read : Cell → m α) (cells : List Cell) :
    m (List (Option α)) :=
  cells.mapM fun c => if isMissing c then pure none else some <$> read c

/-- Where a column is read, its gaps are its missing cells. -/
theorem gapped_map_isNone {α : Type} {read : Cell → Option α} {cells : List Cell}
    {found : List (Option α)} (h : gapped read cells = some found) :
    found.map Option.isNone = cells.map isMissing := by
  induction cells generalizing found with
  | nil => simp [gapped] at h; subst h; rfl
  | cons c rest ih =>
    simp only [gapped, List.mapM_cons, Option.bind_eq_bind, Option.bind_eq_some_iff] at h
    obtain ⟨x, hx, xs, hxs, he⟩ := h
    simp only [Option.pure_def, Option.some.injEq] at he
    subst he
    rw [List.map_cons, List.map_cons, ih hxs]
    by_cases hm : isMissing c = true
    · rw [if_pos hm] at hx
      simp only [Option.pure_def, Option.some.injEq] at hx
      subst hx
      rw [hm]
      rfl
    · rw [if_neg hm] at hx
      simp only [Option.map_eq_map, Option.map_eq_some_iff] at hx
      obtain ⟨a, _, rfl⟩ := hx
      rw [Bool.not_eq_true] at hm
      rw [hm]
      rfl

namespace Column

/-- What was read of a cell, a gap being null. -/
def orNull {α : Type} (f : α → Value) (x : Option α) : Value := (x.map f).getD .null

/-- A double as a value. -/
def number (d : Double) : Value := orNull (fun d => .number (.double d)) (Fraction.delivered? d)

/-- An integer among gaps. -/
def widened (n : Int) : Value := number (Double.ofDecimal (n < 0) n.natAbs 0)

/-- The texts of a column. -/
def texts (cells : List Cell) : List Value :=
  cells.map fun c => if isMissing c then .null else .string c

/-- The values of a column that does not hold integers. -/
def fractions (cells : List Cell) : List Value :=
  match gapped Fraction.read? cells with
  | some numbers => numbers.map (orNull number)
  | none =>
    match gapped truth? cells with
    | some truths => truths.map (orNull .bool)
    | none => texts cells

/-- The values of a column with an integer that is too large to be signed. Such a column has neither
gaps nor negative numbers, or else its cells are texts. -/
def unsignedOnly (cells : List Cell) : List Value :=
  match gapped unsigned cells with
  | .error .notInteger => fractions cells
  | .error .outOfRange => texts cells
  | .ok found =>
    let negatives := found.contains (some none)
    let gaps := found.contains none
    let large := found.any fun x =>
      match x with
      | some (some n) => maxSigned < n
      | _ => false
    if large && (negatives || gaps) then cells.map .string
    else if negatives then texts cells
    else found.map (orNull (orNull fun n : Nat => .int n))

/-- What the cells of a column denote. -/
def values (cells : List Cell) : List Value :=
  match gapped signed cells with
  | .ok found =>
    if found.contains none then found.map (orNull widened) else found.map (orNull .int)
  | .error .notInteger => fractions cells
  | .error .outOfRange => unsignedOnly cells

end Column

end TypeSketch.Sheet
