import Mathlib.Algebra.Group.Int.Defs
import Mathlib.Algebra.Group.Nat.Defs
import TypeSketch.Proofs.Mishaps
import TypeSketch.Proofs.Naming

/-!
# Integers read back

An integer is written as a row of digits, with a minus sign in front if it is negative. Either
dialect reads the row up to what cannot belong to a number.

* `EndsNumber`: what can follow a number without being taken for a part of it.
* `number_row`: a row of digits is read as the integer of those digits.
* `Text.length_decimal_le_iff`: **the numeral of a number has at most `k` digits exactly when the
  number is below `10 ^ k`.**
* `scalar_decimalInt`: **the numeral of an integer that both dialects hold is read as that integer.**
-/

namespace TypeSketch

namespace Text

/-- Digits are put before others without changing them. -/
theorem decimalOnto_eq (n : Nat) (acc : Text) : decimalOnto n acc = decimal n ++ acc := by
  induction n using Nat.strong_induction_on generalizing acc with
  | _ n ih =>
    unfold decimal
    by_cases h : n < 10
    · rw [decimalOnto, if_pos h, decimalOnto, if_pos h, List.singleton_append]
    · have hlt : n / 10 < n := by omega
      rw [decimalOnto, if_neg h, ih _ hlt, decimalOnto.eq_def n [], if_neg h, ih _ hlt,
        List.append_assoc, List.singleton_append]

theorem length_decimal (n : Nat) :
    (decimal n).length = if n < 10 then 1 else (decimal (n / 10)).length + 1 := by
  rw [decimal, decimalOnto]
  split
  · rfl
  · rw [decimalOnto_eq, List.length_append, List.length_singleton]

/-- **A numeral has at most `k` digits exactly when its number is below `10 ^ k`.** -/
theorem length_decimal_le_iff {k : Nat} (hk : 0 < k) (n : Nat) :
    (decimal n).length ≤ k ↔ n < 10 ^ k := by
  induction k generalizing n with
  | zero => omega
  | succ k ih =>
    rw [length_decimal]
    rcases Nat.eq_zero_or_pos k with rfl | hpos
    · have hne := List.length_pos_iff.2 (decimal_ne_nil (n / 10))
      split <;> omega
    · have hstep := ih hpos (n / 10)
      have hten : 10 ≤ 10 ^ k := Nat.le_self_pow (by omega) 10
      split <;> omega

/-- A numeral begins with a zero only if it is nothing else. -/
theorem decimal_eq_zero_cons {n : Nat} {rest : Text} (h : decimal n = ('0' : CodePoint) :: rest) :
    rest = [] := by
  have hpositive : ∀ n acc, 0 < n → decimalOnto n acc ≠ ('0' : CodePoint) :: rest := by
    intro n acc
    fun_induction decimalOnto n acc with
    | case1 n acc hn =>
      intro hpos h
      have hval := congrArg CodePoint.digitVal (List.cons.inj h).1
      rw [digitVal_ofNat hn] at hval
      have hzero : CodePoint.digitVal '0' = 0 := rfl
      omega
    | case2 n acc hn ih =>
      intro hpos
      exact ih (by omega)
  rcases Nat.eq_zero_or_pos n with rfl | hpos
  · rw [decimal, decimalOnto, if_pos (by decide)] at h
    exact (List.cons.inj h).2.symm
  · exact absurd h (hpositive n [] hpos)

end Text

namespace Json

variable {d : Dialect} {ds rest : Text}

/-- **What can follow a number**: nothing, or a code point that no number goes on with. -/
def EndsNumber (rest : Text) : Prop :=
  ∀ c ∈ rest.head?, c.isDigit = false ∧ c ≠ '.' ∧ c ≠ 'e' ∧ c ≠ 'E'

theorem EndsNumber.nil : EndsNumber [] := by
  intro c hc
  cases hc

theorem EndsNumber.cons {c : CodePoint} (h : c.isDigit = false ∧ c ≠ '.' ∧ c ≠ 'e' ∧ c ≠ 'E') :
    EndsNumber (c :: rest) := by
  intro c' hc'
  cases hc'
  exact h

theorem digits_row (hds : ∀ c ∈ ds, c.isDigit = true) (hrest : EndsNumber rest) :
    digits (ds ++ rest) = ds ∧ afterDigits (ds ++ rest) = rest := by
  have hstop : digits rest = [] ∧ afterDigits rest = rest := by
    cases rest with
    | nil => exact ⟨rfl, rfl⟩
    | cons c rest =>
      have hc := (hrest c rfl).1
      exact ⟨List.takeWhile_cons_of_neg (by simp [hc]), List.dropWhile_cons_of_neg (by simp [hc])⟩
  unfold digits afterDigits at *
  rw [List.takeWhile_append_of_pos hds, List.dropWhile_append_of_pos hds, hstop.1, hstop.2]
  exact ⟨List.append_nil ds, rfl⟩

/-- A row of digits that a number can begin with: not empty, and a zero in front stands alone. -/
def IsWhole (ds : Text) : Prop :=
  (∀ c ∈ ds, c.isDigit = true) ∧ ds ≠ [] ∧ ∀ tail, ds = ('0' : CodePoint) :: tail → tail = []

theorem isWhole_decimal (n : Nat) : IsWhole (Text.decimal n) :=
  ⟨Text.isDigit_of_mem_decimal, Text.decimal_ne_nil n, fun _ => Text.decimal_eq_zero_cons⟩

theorem wholePart?_row (hds : IsWhole ds) (hrest : EndsNumber rest) :
    wholePart? (ds ++ rest) = some (ds, rest) := by
  obtain ⟨hdigit, hne, hzero⟩ := hds
  cases ds with
  | nil => exact absurd rfl hne
  | cons c tail =>
    rw [List.forall_mem_cons] at hdigit
    rw [List.cons_append, wholePart?]
    split
    · next hc =>
      subst hc
      rw [hzero tail rfl]
      rfl
    · have hrow := digits_row hdigit.2 hrest
      rw [if_pos hdigit.1, hrow.1, hrow.2]

/-- Nothing of a number is left where one ends. -/
theorem optionalParts_of_ends (hrest : EndsNumber rest) :
    optionalPart d rest (beginsWith (CodePoint.is '.') rest) (fraction? rest) = .ok (none, rest) ∧
      optionalPart d rest (beginsWith (fun c => c = 'e' || c = 'E') rest) (exponent? rest) =
        .ok (none, rest) := by
  cases rest with
  | nil => cases d <;> exact ⟨rfl, rfl⟩
  | cons c rest =>
    obtain ⟨-, hpoint, hsmall, hlarge⟩ := hrest c rfl
    cases d <;> simp [optionalPart, fraction?, exponent?, beginsWith, CodePoint.is, hpoint, hsmall,
      hlarge]

theorem number_row (hds : IsWhole ds) (hrest : EndsNumber rest) :
    number d (ds ++ rest) = (d.integer false ds).map (·, rest) := by
  have hsign : beginsWith (CodePoint.is '-') (ds ++ rest) = false := by
    obtain ⟨hdigit, hne, -⟩ := hds
    cases ds with
    | nil => exact absurd rfl hne
    | cons c tail =>
      have hc := hdigit c List.mem_cons_self
      simp only [List.cons_append, beginsWith, CodePoint.is, decide_eq_false_iff_not]
      rintro rfl
      exact absurd hc (by decide)
  have hparts := optionalParts_of_ends (d := d) hrest
  unfold number
  simp only [hsign, Bool.false_eq_true, if_false, wholePart?_row hds hrest, hparts.1, hparts.2,
    numberOf]
  cases d.integer false ds <;> rfl

theorem number_negative (hds : IsWhole ds) (hrest : EndsNumber rest) :
    number d ('-' :: (ds ++ rest)) = (d.integer true ds).map (·, rest) := by
  have hsign : beginsWith (CodePoint.is '-') ('-' :: (ds ++ rest)) = true := rfl
  have hparts := optionalParts_of_ends (d := d) hrest
  unfold number
  simp only [hsign, if_true, List.drop_one, List.tail_cons, wholePart?_row hds hrest, hparts.1,
    hparts.2, numberOf]
  cases d.integer true ds <;> rfl

/-- No word stands where one of the first two code points is a digit. -/
theorem word?_of_digit {t : Text} (h : ∃ c ∈ t.take 2, c.isDigit = true) :
    word? d.words t = none := by
  have hwords : ∀ w ∈ d.words, w.1.length = (w.1.drop 2).length + 2 ∧
      ∀ c ∈ w.1.take 2, c.isDigit = false := by
    cases d <;> decide
  obtain ⟨c, hc, hdigit⟩ := h
  generalize d.words = ws at hwords
  induction ws with
  | nil => rfl
  | cons w ws ih =>
    rw [List.forall_mem_cons] at hwords
    rw [word?, if_neg, ih hwords.2]
    intro hstart
    have hw := (List.isPrefixOf_iff_prefix.1 hstart)
    obtain ⟨tail, rfl⟩ := hw
    rw [List.take_append_of_le_length (by omega)] at hc
    exact absurd hdigit (by simp [hwords.1.2 c hc])

/-- A row of digits is read as the integer of those digits. -/
theorem scalar_row (hds : IsWhole ds) (hrest : EndsNumber rest) :
    scalar d (ds ++ rest) = (d.integer false ds).map (·, rest) := by
  have hnumber := number_row (d := d) hds hrest
  obtain ⟨hdigit, hne, -⟩ := hds
  cases ds with
  | nil => exact absurd rfl hne
  | cons c tail =>
    have hc := hdigit c List.mem_cons_self
    have hquote : c ≠ '"' := by
      rintro rfl
      exact absurd hc (by decide)
    rw [List.cons_append] at hnumber ⊢
    rw [scalar, if_neg hquote, word?_of_digit ⟨c, by simp, hc⟩]
    exact hnumber

theorem scalar_negative (hds : IsWhole ds) (hrest : EndsNumber rest) :
    scalar d ('-' :: (ds ++ rest)) = (d.integer true ds).map (·, rest) := by
  have hnumber := number_negative (d := d) hds hrest
  have hword : word? d.words ('-' :: (ds ++ rest)) = none := by
    obtain ⟨hdigit, hne, -⟩ := hds
    cases ds with
    | nil => exact absurd rfl hne
    | cons c tail => exact word?_of_digit ⟨c, by simp, hdigit c List.mem_cons_self⟩
  rw [scalar, if_neg (by decide), hword]
  exact hnumber

/-- The digits of a number below `2 ^ 63` are not too many for either dialect. -/
theorem integer_decimal {n : Nat} (hn : n < 2 ^ 63) (negative : Bool) :
    d.integer negative (Text.decimal n) = .ok (.int (if negative then -(n : Int) else n)) := by
  have hlength : (Text.decimal n).length ≤ 19 :=
    (Text.length_decimal_le_iff (by decide) n).2 (by omega)
  cases d with
  | lenient =>
    have hmax : ¬ Dialect.maxDigits < (Text.decimal n).length := by
      rw [Dialect.maxDigits]
      omega
    rw [Dialect.integer, if_neg hmax, Text.natOfDigits_decimal]
  | strict =>
    have hbound : n < Nat.pow 2 63 := hn
    rw [Dialect.integer, if_neg (by omega), Text.natOfDigits_decimal, if_pos hbound]

/-- **The numeral of an integer that both dialects hold is read as that integer.** -/
theorem scalar_decimalInt {n : Int} (hlow : -2 ^ 63 < n) (hhigh : n < 2 ^ 63)
    (hrest : EndsNumber rest) :
    scalar d (Text.decimalInt n ++ rest) = .ok (.int n, rest) := by
  cases n with
  | ofNat n =>
    have hn : n < 2 ^ 63 := Int.ofNat_lt.1 hhigh
    rw [Text.decimalInt, scalar_row (isWhole_decimal n) hrest, integer_decimal hn false]
    rfl
  | negSucc n =>
    rw [Text.decimalInt, List.cons_append, scalar_negative (isWhole_decimal (n + 1)) hrest,
      integer_decimal (by omega) true]
    rfl

end Json

end TypeSketch
