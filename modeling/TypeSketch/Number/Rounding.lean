/-!
# Rounding a quotient

* `roundHalfEven`: the natural number nearest to a quotient, an exact half going to the even one.
* `roundHalfEven_of_dvd`: a quotient that is a natural number is not changed.
* `two_mul_roundHalfEven_le`, `le_two_mul_roundHalfEven`: the result is within half a unit.
-/

namespace TypeSketch

/-- The natural number nearest to `num / den`; of two equally near ones, the even one. -/
def roundHalfEven (num den : Nat) : Nat :=
  let q := num / den
  let r := 2 * (num % den)
  if den < r || (r = den && q % 2 = 1) then q + 1 else q

theorem roundHalfEven_of_dvd {num den : Nat} (hd : 0 < den) (h : den ∣ num) :
    roundHalfEven num den = num / den := by
  have hr : num % den = 0 := Nat.mod_eq_zero_of_dvd h
  have : ¬ den < 2 * 0 ∧ ¬ (2 * 0 = den) := by omega
  simp [roundHalfEven, hr]
  omega

/-- The result is at most half a unit above the quotient. -/
theorem two_mul_roundHalfEven_le {num den : Nat} (hd : 0 < den) :
    2 * (den * roundHalfEven num den) ≤ 2 * num + den := by
  have hdiv := Nat.div_add_mod num den
  have hmod := Nat.mod_lt num hd
  unfold roundHalfEven
  simp only
  split
  · next h =>
    simp only [Bool.or_eq_true, decide_eq_true_eq, Bool.and_eq_true] at h
    rw [Nat.mul_add, Nat.mul_one]
    omega
  · omega

/-- The result is at most half a unit below the quotient. -/
theorem le_two_mul_roundHalfEven {num den : Nat} (hd : 0 < den) :
    2 * num ≤ 2 * (den * roundHalfEven num den) + den := by
  have hdiv := Nat.div_add_mod num den
  have hmod := Nat.mod_lt num hd
  unfold roundHalfEven
  simp only
  split
  · rw [Nat.mul_add, Nat.mul_one]
    omega
  · next h =>
    simp only [Bool.or_eq_true, decide_eq_true_eq, Bool.and_eq_true] at h
    omega

end TypeSketch
