import TypeSketch.Generate
import TypeSketch.Proofs.Integers
import TypeSketch.Proofs.Steps

/-!
# What becomes of a text

A text is either parsed safely, with a report on what is wrong with it, or types are generated from
it, which fails then. Both go by one verdict on the text.

* `verdict`: what a text comes to. It is empty, too large, malformed or too deep, it has a value, or
  something that neither side reports stops it.
* `parseSafely_eq`: the safe parser reads the verdict off.
* `generateFromText_eq`: **generation takes the value of the text, and then only the value counts.**
* `stopped_cases`: **a text is stopped by a surrogate or by an integer with too many digits.**
* `verdict_row`, `verdict_times`: a text of nothing but too many digits is stopped.
-/

namespace TypeSketch

/-- **What a text comes to.** -/
inductive Verdict where
  | value (v : Value)
  | empty
  | tooLarge (bytes : Nat) (limit : Int)
  | malformed (complaint : Json.Complaint)
  | tooDeep
  /-- A fault that is nobody's to report. -/
  | stopped (f : Fault)

/-- What a mishap in a text makes of it. -/
def Verdict.ofMishap (t : Text) : Json.Mishap → Verdict
  | .problem p rest => .malformed (.locate t p (t.length - rest.length))
  | .longInteger digits => .stopped (.longInteger digits)
  | _ => .tooDeep

/-- What a text comes to within a limit on its size. -/
def verdict (t : Text) (kilobytes : Option Int) : Verdict :=
  if t.isBlank then .empty
  else match oversize? kilobytes t with
    | .error f => .stopped f
    | .ok (some (bytes, limit)) => .tooLarge bytes limit
    | .ok none =>
      match Json.decode .lenient t with
      | .ok v => .value v
      | .error m => .ofMishap t m

namespace Verdict

/-- The value of a text or the report on it, unless it is stopped. -/
def parsed : Verdict → Except Fault (Except Text Value)
  | value v => .ok (.ok v)
  | empty => .ok (.error Fault.emptyInput.message)
  | tooLarge bytes limit => .ok (.error (sizeMessage bytes limit))
  | malformed complaint => .ok (.error complaint.message)
  | tooDeep => .ok (.error (Fault.depthMessage none))
  | stopped f => .error f

/-- The value of a text or the fault that it has none, where values may nest to a limit. -/
def sample (depth : Option Int) : Verdict → Except Fault Value
  | value v => .ok v
  | empty => .error .emptyInput
  | tooLarge bytes limit => .error (.tooLarge bytes limit)
  | malformed complaint => .error (.malformedInput complaint)
  | tooDeep => .error (.tooDeep depth)
  | stopped f => .error f

end Verdict

/-- A text is given to the decoder: it is not empty, and its size is within the limit. -/
def Decodes (t : Text) (kilobytes : Option Int) : Prop :=
  t.isBlank = false ∧ oversize? kilobytes t = .ok none

variable {t : Text} {kilobytes : Option Int} {v : Value} {f : Fault} {settings : Settings}

/-! ## Both sides read the verdict off -/

theorem parseSafely_eq (t : Text) (kilobytes : Option Int) :
    parseSafely t kilobytes = (verdict t kilobytes).parsed := by
  unfold parseSafely verdict
  by_cases hblank : t.isBlank = true
  · rw [if_pos hblank, if_pos hblank]
    rfl
  · rw [if_neg hblank, if_neg hblank]
    cases oversize? kilobytes t with
    | error f => rfl
    | ok size =>
      cases size with
      | some pair => rfl
      | none =>
        cases Json.decode .lenient t with
        | ok v => rfl
        | error m => cases m <;> rfl

/-- **Generation takes the value of the text, and then only the value counts.** -/
theorem generateFromText_eq {target : Target} (hformat : Target.ofValue settings.format = .ok target)
    (t : Text) (depth kilobytes : Option Int) :
    generateFromText t settings depth kilobytes =
      (verdict t kilobytes).sample depth >>= fun v => generateFromValue v settings depth := by
  unfold generateFromText verdict
  rw [hformat]
  by_cases hblank : t.isBlank = true
  · rw [if_pos hblank, if_pos hblank]
    rfl
  · rw [if_neg hblank, if_neg hblank]
    cases oversize? kilobytes t with
    | error f => rfl
    | ok size =>
      cases size with
      | some pair => rfl
      | none =>
        cases Json.decode .lenient t with
        | ok v => rfl
        | error m => cases m <;> rfl

/-- A text is too deep exactly when the decoder is given it and gives up on its nesting. -/
theorem verdict_eq_tooDeep_iff (t : Text) (kilobytes : Option Int) :
    verdict t kilobytes = .tooDeep ↔
      Decodes t kilobytes ∧ Json.decode .lenient t = .error .tooDeep := by
  unfold verdict Decodes
  by_cases hblank : t.isBlank = true
  · simp [hblank]
  · rw [if_neg hblank]
    have hblank' : t.isBlank = false := by simpa using hblank
    cases oversize? kilobytes t with
    | error f => simp
    | ok size =>
      cases size with
      | some pair => simp
      | none =>
        cases hdecode : Json.decode .lenient t with
        | ok v => simp
        | error m =>
          cases Json.in_of_decode hdecode <;> simp [Verdict.ofMishap, hblank']

/-! ## What stops a text -/

theorem isSurrogate_of_surrogatesFrom {offset : Nat} {r : CodePoint × Nat × Nat}
    (h : surrogatesFrom offset t = some r) : ∃ c ∈ t, c.isSurrogate = true := by
  induction t generalizing offset with
  | nil => cases h
  | cons c rest ih =>
    rw [surrogatesFrom] at h
    by_cases hc : c.isSurrogate = true
    · exact ⟨c, List.mem_cons_self, hc⟩
    · rw [if_neg hc] at h
      obtain ⟨d, hd, hsurrogate⟩ := ih h
      exact ⟨d, List.mem_cons_of_mem _ hd, hsurrogate⟩

/-- The size of a text is not found only where the text has surrogates. -/
theorem oversize?_eq_error (h : oversize? kilobytes t = .error f) :
    (∃ c offset count, f = .unencodable c offset count) ∧ ∃ c ∈ t, c.isSurrogate = true := by
  unfold oversize? byteSize at h
  split at h
  · cases h
  · split at h
    · next c offset count hs =>
      cases h
      exact ⟨⟨c, offset, count, rfl⟩, isSurrogate_of_surrogatesFrom hs⟩
    · cases h

/-- **What stops a text** is a surrogate in it, while its size counts, or an integer with too many
digits. -/
theorem stopped_cases (h : verdict t kilobytes = .stopped f) :
    ((∃ c offset count, f = .unencodable c offset count) ∧ ∃ c ∈ t, c.isSurrogate = true) ∨
      ∃ digits, f = .longInteger digits ∧ Decodes t kilobytes ∧
        Json.decode .lenient t = .error (.longInteger digits) := by
  unfold verdict at h
  by_cases hblank : t.isBlank = true
  · rw [if_pos hblank] at h
    cases h
  · rw [if_neg hblank] at h
    have hblank' : t.isBlank = false := by simpa using hblank
    cases hsize : oversize? kilobytes t with
    | error g =>
      rw [hsize] at h
      cases h
      exact .inl (oversize?_eq_error hsize)
    | ok size =>
      rw [hsize] at h
      cases size with
      | some pair => cases h
      | none =>
        cases hdecode : Json.decode .lenient t with
        | ok v =>
          rw [hdecode] at h
          cases h
        | error m =>
          rw [hdecode] at h
          cases m with
          | longInteger digits =>
            cases h
            exact .inr ⟨digits, rfl, ⟨hblank', hsize⟩, rfl⟩
          | _ => cases h

/-- A fault that either side tells its caller about in its own words. -/
def Fault.isReported : Fault → Bool
  | .emptyInput | .malformedInput _ | .tooLarge .. | .tooDeep _ => true
  | _ => false

theorem isReported_of_stopped (h : verdict t kilobytes = .stopped f) : f.isReported = false := by
  rcases stopped_cases h with ⟨⟨c, offset, count, rfl⟩, -⟩ | ⟨digits, rfl, -⟩ <;> rfl

/-! ## Too many digits -/

theorem CodePoint.val_of_isDigit {c : CodePoint} (h : c.isDigit = true) :
    0x30 ≤ c.val ∧ c.val ≤ 0x39 := by
  simpa [CodePoint.isDigit] using h

/-- The size of a text of scalar values is found. -/
theorem byteSize_of_scalar (h : ∀ c ∈ t, c.isSurrogate = false) : byteSize t = .ok t.utf8Size := by
  unfold byteSize
  split
  · next c offset count hs =>
    obtain ⟨d, hd, hsurrogate⟩ := isSurrogate_of_surrogatesFrom hs
    rw [h d hd] at hsurrogate
    cases hsurrogate
  · rfl

/-- ASCII characters take a byte each. -/
theorem Text.utf8Size_of_ascii (h : ∀ c ∈ t, c.val < 0x80) : t.utf8Size = t.length := by
  have hfrom : ∀ n, t.foldl (fun n c => n + c.utf8Size) n = n + t.length := by
    induction t with
    | nil => exact fun n => rfl
    | cons c rest ih =>
      rw [List.forall_mem_cons] at h
      intro n
      have hc : c.utf8Size = 1 := if_pos h.1
      rw [List.foldl_cons, ih h.2, hc, List.length_cons]
      omega
  rw [utf8Size, hfrom 0, Nat.zero_add]

/-- Decoding stops at a row of too many digits. -/
theorem Json.decode_row {ds : Text} (hds : IsWhole ds) (hlong : Dialect.maxDigits < ds.length) :
    decode .lenient ds = .error (.longInteger ds.length) := by
  have hscalar := scalar_row (d := .lenient) hds EndsNumber.nil
  rw [List.append_nil, Dialect.integer, if_pos hlong] at hscalar
  obtain ⟨hdigit, hne, -⟩ := hds
  cases ds with
  | nil => exact absurd rfl hne
  | cons c rest =>
    have hc := CodePoint.val_of_isDigit (hdigit c List.mem_cons_self)
    have hdiffers : ∀ e : CodePoint, e.val < 0x30 ∨ 0x39 < e.val → c ≠ e := by
      rintro e he rfl
      omega
    have hbom : ¬ beginsWith (fun c => c.val = 0xFEFF) (c :: rest) = true := by
      simp only [beginsWith, decide_eq_true_eq]
      omega
    rw [decode, if_neg hbom, skipBlanks_visible (by omega), run_scalar (hdiffers _ (by decide)) (hdiffers _ (by decide)),
      hscalar]
    rfl

/-- **A text of nothing but too many digits is stopped**, if it is not too large. -/
theorem verdict_row {ds : Text} (hds : Json.IsWhole ds)
    (hlong : Json.Dialect.maxDigits < ds.length)
    (hsize : ∀ limit ∈ kilobytes, (ds.length : Int) ≤ limit * 1024) :
    verdict ds kilobytes = .stopped (.longInteger ds.length) := by
  have hval : ∀ c ∈ ds, 0x30 ≤ c.val ∧ c.val ≤ 0x39 := fun c hc =>
    CodePoint.val_of_isDigit (hds.1 c hc)
  have hblank : ¬ ds.isBlank = true := by
    intro h
    cases ds with
    | nil => exact hds.2.1 rfl
    | cons c rest =>
      have hc := hval c List.mem_cons_self
      have hfirst := List.all_eq_true.1 h c List.mem_cons_self
      rw [CodePoint.isBlank_of_visible (by omega) (by omega)] at hfirst
      cases hfirst
  have hscalar : ∀ c ∈ ds, c.isSurrogate = false := by
    intro c hc
    have hc := hval c hc
    simp only [CodePoint.isSurrogate, Bool.and_eq_false_iff, decide_eq_false_iff_not]
    omega
  have hascii : ∀ c ∈ ds, c.val < 0x80 := fun c hc => by
    have hc := hval c hc
    omega
  have hwithin : oversize? kilobytes ds = .ok none := by
    cases kilobytes with
    | none => rfl
    | some limit =>
      have hle := hsize limit rfl
      have hfits : ¬ limit * 1024 < (ds.length : Int) := by omega
      simp only [oversize?, byteSize_of_scalar hscalar, Text.utf8Size_of_ascii hascii, bind,
        Except.bind, if_neg hfits]
      rfl
  rw [verdict, if_neg hblank, hwithin, Json.decode_row hds hlong]
  rfl

/-- A row of ones that is too long for an integer stops the text, if it is not too large. -/
theorem verdict_times {n : Nat} (hlong : Json.Dialect.maxDigits < n)
    (hsize : ∀ limit ∈ kilobytes, (n : Int) ≤ limit * 1024) :
    verdict (Text.times n '1') kilobytes = .stopped (.longInteger n) := by
  have hone : ∀ c ∈ Text.times n '1', c = '1' := fun c hc => List.eq_of_mem_replicate hc
  have hlength : (Text.times n '1').length = n := List.length_replicate
  have hrow : Json.IsWhole (Text.times n '1') := by
    refine ⟨fun c hc => hone c hc ▸ rfl, fun h => ?_, fun tail h => ?_⟩
    · rw [h, List.length_nil] at hlength
      omega
    · have hzero := hone '0' (h ▸ List.mem_cons_self)
      exact absurd hzero (by decide)
  have hverdict := verdict_row hrow (hlength.symm ▸ hlong) (hlength.symm ▸ hsize)
  rwa [hlength] at hverdict

end TypeSketch
