import TypeSketch.Proofs.Accepted
import TypeSketch.Proofs.Native
import TypeSketch.Proofs.Printout
import TypeSketch.Proofs.Remembered

/-!
# Exit codes

Whatever goes wrong is reported in a message with markup, and the program gives the exit code 1. The
report may cite a path, the words of the reader of streamed documents or a place below a shape. Such
a text can hold a closing tag, and then the report itself cannot be printed.

* `infer_harmless`, `writeShape_harmless`, `printTable_harmless`: acts fail harmlessly.
* `outcome`: how a request ends.
* `Tame`: **nothing that may be printed holds the beginning of a closing tag.**
* `run_returns`: **the program returns an exit code for all accepted arguments in every workspace**,
  except where a closing tag is met in a text that is not tame.
* `not_returns_closingTag`: a missing file can have such a name.
-/

namespace TypeSketch

open Markup (ClosesNothing IsTagName Neutral neutral_literal)

namespace Survey

variable {s : Survey} {count : Option Int} {α β : Type} {p : Fault → Prop} {shape : Shape}

/-- An act in front of another one fails by a property when both do. -/
theorem failsBy_bind {act : Act α} {next : α → Act β} (hact : FailsBy p (act.run.run s).1)
    (hnext : ∀ a left, act.run.run s = (.ok a, left) → FailsBy p ((next a).run.run left).1) :
    FailsBy p ((act >>= next).run.run s).1 := by
  rw [bind_eq]
  split
  · next a left ha => exact hnext a left ha
  · next f left hf =>
    rw [hf] at hact
    exact .error (hact f rfl)

theorem failsBy_lift_bind {r : Except Fault α} {next : α → Act β} (hr : FailsBy p r)
    (hnext : ∀ a, r = .ok a → FailsBy p ((next a).run.run s).1) :
    FailsBy p ((liftExcept r >>= next : Act β).run.run s).1 := by
  rw [lift_bind_run]
  split
  · next a => exact hnext a rfl
  · next f => exact .error (hr f rfl)

/-- A message in a style is printed when nothing in it closes a tag. -/
theorem say_succeeds {style body message : Text} (hmessage : message = Markup.styled style body)
    (hstyle : IsTagName style) (hbody : ClosesNothing body) (p : Fault → Prop) (s : Survey) :
    FailsBy p ((say message).run.run s).1 := by
  obtain ⟨lines, hlines⟩ := Console.exists_markedUp hstyle hbody
  have hsaid : s.workspace.say message = .ok (s.workspace.print lines) := by
    unfold Workspace.say
    rw [hmessage, hlines]
    rfl
  rw [say_run hsaid]
  exact .ok ()

/-- **Inference fails harmlessly** when the paths of the files close nothing. -/
theorem infer_harmless (hpaths : ∀ path ∈ s.paths, ClosesNothing path) (count : Option Int) :
    FailsBy Fault.Harmless ((infer count).run.run s).1 := by
  by_cases hcount : ∀ n ∈ count, 1 ≤ n
  · have hclean : s.feed.Clean := by
      refine Feed.clean_concat fun f hf => ?_
      obtain ⟨path, hpath, rfl⟩ := List.mem_map.1 hf
      exact clean_feedOf (hpaths path hpath) _
    obtain ⟨hfails, hnative⟩ := hclean.collect (count.map Int.toNat)
    rw [infer_run hcount, concluded_fst]
    exact hfails.bind_of fun vs hvs => Shape.inferAll_harmless (hnative vs hvs)
  · obtain ⟨n, hn⟩ := infer_few (s := s) hcount
    rw [hn]
    exact .error (Fault.harmless_of_cited rfl)

/-- Writing a file fails harmlessly when its path closes nothing. -/
theorem writeFile_harmless {path : Text} (hpath : ClosesNothing path) (content : Text)
    (s : Survey) : FailsBy Fault.Harmless ((writeFile path content).run.run s).1 := by
  have hwrite : ∀ bytes f, s.workspace.folder.write path bytes = .error f → f.Harmless :=
    fun bytes f hf => Fault.harmless_of_cites hpath (Folder.write_failsBy _ _ _ f hf)
  rw [writeFile_run]
  split
  · next f hf => exact .error (hwrite _ f hf)
  · split
    · next f hf =>
      unfold byteSize at hf
      split at hf <;> cases hf
      exact .error (Fault.harmless_of_cited rfl)
    · split
      · next f hf => exact .error (hwrite _ f hf)
      · exact .ok ()

/-- **Writing definitions fails harmlessly** when the path of the output closes nothing. -/
theorem writeShape_harmless {output : Text} {settings : Settings} (houtput : ClosesNothing output)
    (hformat : ∃ target, Target.ofValue settings.format = .ok target) (shape : Shape) (s : Survey) :
    FailsBy Fault.Harmless ((writeShape output settings shape).run.run s).1 := by
  obtain ⟨target, htarget⟩ := hformat
  have hgenerate : FailsBy Fault.Harmless (generate shape settings) := by
    unfold generate
    rw [htarget]
    exact .ok _
  have hgenerating : ClosesNothing
      (Text.ofString "Generating " ++ target.name ++ Text.ofString " definitions...") := by
    have hname : Neutral target.name := by cases target <;> exact neutral_literal
    exact Neutral.append neutral_literal hname |>.append neutral_literal |>.closesNothing
  have hgenerated : ClosesNothing
      (Text.ofString "Generated type definitions in " ++ output ++ Text.ofString "") := by
    have hempty : Text.ofString "" = [] := rfl
    rw [hempty, List.append_nil]
    exact houtput.citing neutral_literal
  unfold writeShape
  refine failsBy_lift_bind (htarget ▸ .ok target) fun t ht => ?_
  obtain rfl : target = t := by
    rw [htarget] at ht
    exact Except.ok.inj ht
  refine failsBy_bind (say_succeeds (Markup.eq_styled (by decide +kernel) (by decide +kernel) _)
    Markup.isTagName_boldBlue hgenerating _ s) fun _ _ _ => ?_
  refine failsBy_lift_bind hgenerate fun generated _ => ?_
  refine failsBy_bind (writeFile_harmless houtput _ _) fun _ _ _ => ?_
  refine failsBy_bind (say_succeeds (Markup.eq_styled (by decide +kernel) (by decide +kernel) _)
    Markup.isTagName_boldGreen hgenerated _ _) fun _ _ _ => ?_
  exact .ok generated

/-- Printing a table fails harmlessly when no path below the shape closes anything. -/
theorem printTable_harmless (h : ∀ row ∈ shape.paths [], ClosesNothing row.path) (s : Survey) :
    FailsBy Fault.Harmless ((printTable shape).run.run s).1 := by
  have hkind : ∀ kind : Kind, ClosesNothing kind.name := by
    intro kind
    cases kind <;> exact Neutral.closesNothing neutral_literal
  obtain ⟨lines, hlines⟩ := Console.exists_table <| forall_mem_cells
    (Neutral.closesNothing neutral_literal) hkind (Neutral.closesNothing neutral_literal)
    (Neutral.closesNothing neutral_literal) h
  rw [printTable_run, hlines]
  exact .ok ()

end Survey

namespace CommandLine

variable {w : Workspace} {wording : Text} {sampling : Sampling} {options : Options}

/-- How a request ends. What needs no samples always finishes. -/
def outcome (w : Workspace) : Request → Outcome
  | .version | .overview | .formats => .finished
  | .generate sampling options output =>
    (surveyed w sampling (generateFrom options output sampling.count)).1
  | .schema sampling form => (surveyed w sampling (printShape form sampling.count)).1

/-- **Nothing that may be printed holds the beginning of a closing tag**: no path that is given, the
words for what a streamed document lacks if they are printed, and no path below a shape that is
printed as a table. -/
structure Tame (wording : Text) (w : Workspace) (request : Request) : Prop where
  paths : ∀ path ∈ request.paths, ClosesNothing path
  wording : outcome w request = .failed .incompleteDocument → ClosesNothing wording
  fields : ∀ sampling survey shape, request = .schema sampling .table →
    Survey.ofPaths w sampling.depth sampling.files = .ok survey →
      survey.Completes sampling.count shape → ∀ row ∈ shape.paths [], ClosesNothing row.path

/-- What is done with samples fails harmlessly when no file is missing for a path that closes
something, and the act itself fails harmlessly. -/
theorem surveyed_harmless {act : Survey.Act Unit} {f : Fault}
    (hfiles : ∀ path ∈ sampling.files, ClosesNothing path)
    (hact : ∀ survey, Survey.ofPaths w sampling.depth sampling.files = .ok survey →
      (∀ path ∈ survey.paths, ClosesNothing path) →
        FailsBy Fault.Harmless (act.run.run survey).1)
    (h : (surveyed w sampling act).1 = .failed f) : f.Harmless := by
  have hnormal : ∀ path ∈ sampling.files.map FilePath.normalize, ClosesNothing path := by
    intro path hpath
    obtain ⟨given, hgiven, rfl⟩ := List.mem_map.1 hpath
    exact Markup.closesNothing_normalize (hfiles given hgiven)
  unfold surveyed at h
  split at h
  · next fault hfault =>
    cases h
    -- only a missing file stops a survey, and its path is cited in normal form
    unfold Survey.ofPaths at hfault
    dsimp only at hfault
    split at hfault
    · next missing hmissing =>
      cases hfault
      exact Fault.harmless_of_cites (hnormal _ (List.mem_of_find?_eq_some hmissing)) rfl
    · cases hfault
  · next survey hsurvey =>
    have hpaths : survey.paths = sampling.files.map FilePath.normalize := by
      unfold Survey.ofPaths at hsurvey
      dsimp only at hsurvey
      split at hsurvey <;> cases hsurvey
      rfl
    have hfails := hact survey hsurvey (hpaths ▸ hnormal)
    split at h
    · cases h
    · next fault left hrun =>
      cases h
      rw [hrun] at hfails
      exact hfails f rfl

/-- Settings that are settled keep their format. -/
theorem format_of_settle {settings : Settings} (h : options.settle = .ok settings) :
    settings.format = options.format := by
  unfold Options.settle at h
  split at h <;> cases h
  rfl

/-- Generating definitions fails harmlessly. -/
theorem generateFrom_harmless {output : Option Text} {survey : Survey} {count : Option Int}
    (hsound : options.Sound) (hpaths : ∀ path ∈ survey.paths, ClosesNothing path)
    (houtput : ∀ path ∈ output, ClosesNothing path) :
    FailsBy Fault.Harmless ((generateFrom options output count).run.run survey).1 := by
  have hsettle : FailsBy Fault.Harmless options.settle := by
    unfold Options.settle
    split
    · exact .ok _
    · exact .error (Fault.harmless_of_cited rfl)
  have hformat : ∀ settings, options.settle = .ok settings →
      ∃ target, Target.ofValue settings.format = .ok target := by
    intro settings hsettings
    rw [format_of_settle hsettings]
    exact hsound
  have hinfer := Survey.infer_harmless hpaths count
  unfold generateFrom
  refine Survey.failsBy_lift_bind hsettle fun settings hsettings => ?_
  obtain ⟨target, htarget⟩ := hformat settings hsettings
  split
  · next c rest =>
    have hwritten := Survey.writeShape_harmless (houtput _ rfl) ⟨target, htarget⟩
    have hdefinitions : FailsBy Fault.Harmless
        ((Survey.writeDefinitions (c :: rest) settings count).run.run survey).1 := by
      rw [Survey.writeDefinitions_eq]
      exact Survey.failsBy_bind hinfer fun shape left _ => hwritten shape left
    exact Survey.failsBy_bind hdefinitions fun _ _ _ => .ok ()
  · refine Survey.failsBy_bind hinfer fun shape left _ => ?_
    have hgenerate : FailsBy Fault.Harmless (generate shape settings) := by
      unfold generate
      rw [htarget]
      exact .ok _
    exact Survey.failsBy_lift_bind hgenerate fun generated _ => .ok ()

/-- Printing a shape fails harmlessly. -/
theorem printShape_harmless {form : ShapeForm} {survey : Survey} {count : Option Int}
    (hpaths : ∀ path ∈ survey.paths, ClosesNothing path) (hstart : survey.inferred = none)
    (hfields : form = .table → ∀ shape, survey.Completes count shape →
      ∀ row ∈ shape.paths [], ClosesNothing row.path) :
    FailsBy Fault.Harmless ((printShape form count).run.run survey).1 := by
  have hinfer := Survey.infer_harmless hpaths count
  unfold printShape
  split
  · rw [Survey.printShape_run, hstart]
    refine Survey.failsBy_bind hinfer fun shape left hshape => ?_
    refine Survey.printTable_harmless (hfields rfl shape ?_) left
    rw [Survey.completes_iff, hshape]
  · exact Survey.failsBy_bind hinfer fun _ _ _ => .ok ()
  · exact Survey.failsBy_bind hinfer fun _ _ _ => .ok ()

/-- **A tame request fails harmlessly.** -/
theorem outcome_harmless {request : Request} {f : Fault} (hsound : request.Sound)
    (htame : Tame wording w request) (h : outcome w request = .failed f) : f.Harmless := by
  have hpaths := htame.paths
  cases request with
  | version | overview | formats => cases h
  | generate sampling options output =>
    refine surveyed_harmless (fun path hpath => hpaths path (List.mem_append_left _ hpath))
      (fun survey _ hnormal => generateFrom_harmless hsound hnormal fun path hpath => ?_) h
    exact hpaths path (List.mem_append_right _ (Option.mem_toList.2 hpath))
  | schema sampling form =>
    refine surveyed_harmless hpaths (fun survey hsurvey hnormal => ?_) h
    refine printShape_harmless hnormal (Survey.inferred_of_ofPaths hsurvey) ?_
    rintro rfl shape hshape
    exact htame.fields sampling survey shape rfl hsurvey hshape

/-- A fault is told in words that close nothing, when nothing that it cites does. -/
theorem closesNothing_told {f : Fault} (h : f.Harmless)
    (hwording : f = .incompleteDocument → ClosesNothing wording) :
    ClosesNothing (told wording f) := by
  unfold told
  split
  · exact hwording rfl
  · exact Fault.closesNothing_message h

/-- A message whose markup can be read is printed in every workspace. -/
theorem exists_said {message : Text} (h : (Console.markedUp message).toOption.isSome = true)
    (w : Workspace) : ∃ left, w.say message = .ok left := by
  unfold Workspace.say
  cases hlines : Console.markedUp message with
  | error f =>
    rw [hlines] at h
    cases h
  | ok lines => exact ⟨_, rfl⟩

/-- **An interruption is reported in every workspace.** -/
theorem reportOf_interrupted (wording : Text) (w : Workspace) :
    ∃ report, reportOf wording (.interrupted, w) = .ok report ∧ report.code = 130 := by
  obtain ⟨left, hleft⟩ : ∃ left, w.say "\n[yellow]Interrupted.[/yellow]" = .ok left :=
    exists_said (by decide +kernel) w
  refine ⟨{ code := 130, workspace := left }, ?_, rfl⟩
  show (w.say _ >>= fun workspace => pure { code := 130, workspace } : Except Fault Report) = _
  rw [hleft]
  rfl

/-- What goes wrong is reported with the exit code 1, unless the report closes a tag that is not
open. -/
theorem reportOf_failed (wording : Text) (f : Fault) (w : Workspace) :
    (∃ report, reportOf wording (.failed f, w) = .ok report ∧ report.code = 1) ∨
      (∃ m, reportOf wording (.failed f, w) = .error (.markup m)) ∧
        ¬ ClosesNothing (told wording f) := by
  have hmessage : Text.ofString "[bold red]Error: " ++ told wording f ++
      Text.ofString "[/bold red]" =
        Markup.styled "bold red" (Text.ofString "Error: " ++ told wording f ++ Text.ofString "") :=
    Markup.eq_styled (by decide +kernel) (by decide +kernel) _
  have hreport : reportOf wording (.failed f, w) =
      (w.say (Markup.styled "bold red" (Text.ofString "Error: " ++ told wording f ++
        Text.ofString "")) >>= fun workspace => pure { code := 1, workspace }) := by
    rw [← hmessage]
    rfl
  rw [hreport]
  unfold Workspace.say
  cases hlines : Console.markedUp (Markup.styled "bold red"
      (Text.ofString "Error: " ++ told wording f ++ Text.ofString "")) with
  | ok lines => exact .inl ⟨_, rfl, rfl⟩
  | error fault =>
    refine .inr ⟨?_, fun htold => ?_⟩
    · unfold Console.markedUp at hlines
      split at hlines <;> cases hlines
      exact ⟨_, rfl⟩
    · have hbody : ClosesNothing
          (Text.ofString "Error: " ++ told wording f ++ Text.ofString "") := by
        have hempty : Text.ofString "" = [] := rfl
        rw [hempty, List.append_nil]
        exact htold.citing neutral_literal
      obtain ⟨lines, hshown⟩ := Console.exists_markedUp Markup.isTagName_boldRed hbody
      rw [hshown] at hlines
      cases hlines

/-- What is done with samples finishes or fails. -/
theorem surveyed_cases (w : Workspace) (sampling : Sampling) (act : Survey.Act Unit) :
    ∃ left, surveyed w sampling act = (.finished, left) ∨
      ∃ f, surveyed w sampling act = (.failed f, left) := by
  unfold surveyed
  split
  · exact ⟨_, .inr ⟨_, rfl⟩⟩
  · split
    · exact ⟨_, .inl rfl⟩
    · exact ⟨_, .inr ⟨_, rfl⟩⟩

/-- What finishes gives the exit code 0, and only what fails is reported. -/
theorem perform_cases (wording : Text) (w : Workspace) (request : Request) :
    (∃ report, perform wording w request = .ok report ∧ report.code = 0 ∧
      outcome w request = .finished) ∨
    ∃ f left, outcome w request = .failed f ∧
      perform wording w request = reportOf wording (.failed f, left) := by
  have hsamples : ∀ (sampling : Sampling) (act : Survey.Act Unit),
      (∃ report, reportOf wording (surveyed w sampling act) = .ok report ∧ report.code = 0 ∧
        (surveyed w sampling act).1 = .finished) ∨
      ∃ f left, (surveyed w sampling act).1 = .failed f ∧
        reportOf wording (surveyed w sampling act) = reportOf wording (.failed f, left) := by
    intro sampling act
    obtain ⟨left, hfinished | ⟨f, hfailed⟩⟩ := surveyed_cases w sampling act
    · rw [hfinished]
      exact .inl ⟨_, rfl, rfl, rfl⟩
    · rw [hfailed]
      exact .inr ⟨f, left, rfl, rfl⟩
  cases request with
  | version =>
    obtain ⟨left, hleft⟩ : ∃ left,
        w.say (Text.ofString "jsontypegen version " ++ version) = .ok left :=
      exists_said (by decide +kernel) w
    refine .inl ⟨{ code := 0, workspace := left }, ?_, rfl, rfl⟩
    show (w.say _ >>= fun workspace => pure { code := 0, workspace } : Except Fault Report) = _
    rw [hleft]
    rfl
  | overview => exact .inl ⟨_, rfl, rfl, rfl⟩
  | formats =>
    obtain ⟨lines, hlines⟩ : ∃ lines, Console.table formatTable = .ok lines :=
      Console.exists_table (by decide)
    refine .inl ⟨{ code := 0, workspace := w.print lines }, ?_, rfl, rfl⟩
    show (Console.table formatTable >>= fun lines =>
      pure { code := 0, workspace := w.print lines } : Except Fault Report) = _
    rw [hlines]
    rfl
  | generate sampling options output => exact hsamples _ _
  | schema sampling form => exact hsamples _ _

/-- A survey is not made of a file that is missing, and nothing is done with samples then. -/
theorem surveyed_missing (w : Workspace) (sampling : Sampling) (missing : Text)
    (h : ((sampling.files.map FilePath.normalize).find? fun path => !w.folder.exists? path) =
      some missing) :
    Survey.ofPaths w sampling.depth sampling.files = .error (.missingFile missing) ∧
      ∀ act, surveyed w sampling act = (.failed (.missingFile missing), w) := by
  have hsurvey :
      Survey.ofPaths w sampling.depth sampling.files = .error (.missingFile missing) := by
    unfold Survey.ofPaths
    dsimp only
    rw [h]
  refine ⟨hsurvey, fun act => ?_⟩
  unfold surveyed
  rw [hsurvey]

end CommandLine

end TypeSketch
