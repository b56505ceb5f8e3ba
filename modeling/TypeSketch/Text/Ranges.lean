/-!
# Sets of code points as runs

Character classes are given as increasing lists of runs.

* `Ranges.contains`: membership, which stops at the first run that begins beyond the number.
* `Ranges.contains_iff`: on increasing runs that is membership in one of the runs.
-/

namespace TypeSketch

/-- A set of numbers, as its runs: the first and the last member of each, in increasing order. -/
abbrev Ranges := List (Nat × Nat)

namespace Ranges

/-- Whether a number lies in one of the runs. -/
def contains : Ranges → Nat → Bool
  | [], _ => false
  | (lo, hi) :: rest, n => lo ≤ n && (n ≤ hi || contains rest n)

/-- The runs follow one another without touching. -/
def Increasing : Ranges → Prop
  | [] => True
  | [(lo, hi)] => lo ≤ hi
  | (lo, hi) :: (lo', hi') :: rest => lo ≤ hi ∧ hi < lo' ∧ Increasing ((lo', hi') :: rest)

theorem Increasing.first_le {lo hi : Nat} {rest : Ranges} (h : Increasing ((lo, hi) :: rest)) :
    ∀ r ∈ rest, lo ≤ r.1 := by
  induction rest generalizing lo hi with
  | nil => simp
  | cons r rest ih =>
    obtain ⟨h1, h2, h3⟩ := h
    intro q hq
    rcases List.mem_cons.1 hq with rfl | hq
    · omega
    · have := ih h3 q hq; omega

theorem Increasing.tail {r : Nat × Nat} {rest : Ranges} (h : Increasing (r :: rest)) :
    Increasing rest := by
  cases rest with
  | nil => trivial
  | cons q rest => exact h.2.2

/-- **Membership is membership in a run**, when the runs are increasing. -/
theorem contains_iff {rs : Ranges} (h : Increasing rs) (n : Nat) :
    contains rs n = true ↔ ∃ r ∈ rs, r.1 ≤ n ∧ n ≤ r.2 := by
  induction rs with
  | nil => simp [contains]
  | cons r rest ih =>
    obtain ⟨lo, hi⟩ := r
    have hlo := h.first_le
    simp only [contains, Bool.and_eq_true, decide_eq_true_eq, Bool.or_eq_true, ih h.tail,
      List.mem_cons, exists_eq_or_imp]
    constructor
    · rintro ⟨h1, h2 | h2⟩
      · exact Or.inl ⟨h1, h2⟩
      · exact Or.inr h2
    · rintro (⟨h1, h2⟩ | ⟨q, hq, h2⟩)
      · exact ⟨h1, Or.inl h2⟩
      · exact ⟨by have := hlo q hq; omega, Or.inr ⟨q, hq, h2⟩⟩

end Ranges

end TypeSketch
