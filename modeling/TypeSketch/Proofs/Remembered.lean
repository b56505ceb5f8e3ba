import Mathlib.Data.List.Induction
import TypeSketch.Proofs.Acts
import TypeSketch.Proofs.Obtained

/-!
# What a survey remembers

A survey is used by calls in any order, while its files change in between. What it remembers is
the shape of the latest inference that completed, whatever went wrong before or after it.

* `Completes`: the files deliver the samples that are asked for, and these have a shape.
* `Call.leaves`, `Turn`, `run`: the survey that a call leaves, and turns in a row.
* `Latest`: **the shape of the latest inference that completed**, told from the calls and the files
  alone.
* `Keeps`: an act that leaves what is remembered as it is.
* `remembers_of_idle`, `remembers_of_completes`, `remembers_of_fails`: what a call does to it.
* `latest_run`: a run remembers the latest shape.
-/

namespace TypeSketch

/-- All samples of a feed can be had when nothing goes wrong. -/
theorem Feed.all_eq_ok_iff {f : Feed} {vs : List Value} : f.all = .ok vs ↔ f = ⟨vs, none⟩ := by
  obtain ⟨us, fault⟩ := f
  cases fault <;> simp [all]

namespace Survey

variable {s : Survey} {count : Option Int} {shape : Shape} {α β : Type}

/-! ## Inference that completes -/

/-- **An inference completes**: at least one sample is asked for, the files deliver as many as are
asked for or all that there are, and these have a shape. -/
def Completes (s : Survey) (count : Option Int) (shape : Shape) : Prop :=
  (∀ n ∈ count, 1 ≤ n) ∧ ∃ vs, s.Supplies count vs ∧
    Shape.inferAll s.depth (firstOf count vs) = .ok shape

/-- Samples that can be collected are supplied. -/
theorem exists_supplies {vs : List Value} (h : s.feed.collect (count.map Int.toNat) = .ok vs) :
    ∃ ws, s.Supplies count ws ∧ firstOf count ws = vs := by
  have hend : ∀ {vs : List Value}, s.feed.all = .ok vs →
      Reading.Delivers s.workspace.folder (.start s.paths) vs .done := by
    intro vs h
    rw [Reading.delivers_done_iff, Reading.start_feed]
    exact Feed.all_eq_ok_iff.1 h
  cases count with
  | none => exact ⟨vs, ⟨_, hend h, .inl rfl⟩, rfl⟩
  | some n =>
    simp only [Option.map_some, Feed.collect] at h
    split at h
    · next hle =>
      cases h
      have hprefix : s.feed.samples.take n.toNat <+: s.feed.samples := List.take_prefix _ _
      rw [← Reading.start_feed] at hprefix
      obtain ⟨r, hr⟩ := Reading.delivers_iff.2 hprefix
      refine ⟨_, ⟨r, hr, .inr ⟨n, rfl, ?_⟩⟩, ?_⟩
      · rw [Reading.start_feed, List.length_take]
        omega
      · show (List.take _ _).take _ = _
        rw [List.take_take, Nat.min_self, Reading.start_feed]
    · next hlt =>
      have hsamples : s.feed.samples = vs := congrArg Feed.samples (Feed.all_eq_ok_iff.1 h)
      refine ⟨vs, ⟨_, hend h, .inl rfl⟩, List.take_of_length_le ?_⟩
      rw [← hsamples]
      omega

/-- An inference completes with what it returns. -/
theorem completes_iff : s.Completes count shape ↔ ((infer count).run.run s).1 = .ok shape := by
  by_cases hcount : ∀ n ∈ count, 1 ≤ n
  · rw [infer_run hcount, concluded_fst]
    constructor
    · rintro ⟨-, vs, hvs, hshape⟩
      rw [hvs.collect hcount]
      exact hshape
    · intro h
      obtain ⟨vs, hvs, hshape⟩ := exists_of_bind_ok h
      obtain ⟨ws, hws, rfl⟩ := exists_supplies hvs
      exact ⟨hcount, ws, hws, hshape⟩
  · refine ⟨fun h => absurd h.1 hcount, fun h => ?_⟩
    obtain ⟨n, hn⟩ := infer_few (s := s) hcount
    rw [hn] at h
    cases h

/-- What inference leaves to be remembered. -/
theorem remembers_infer : (((infer count).run.run s).2).inferred =
    match ((infer count).run.run s).1 with
    | .ok shape => some shape
    | .error _ => s.inferred := by
  by_cases hcount : ∀ n ∈ count, 1 ≤ n
  · rw [infer_run hcount]
    cases s.feed.collect (count.map Int.toNat) >>= Shape.inferAll s.depth <;> rfl
  · obtain ⟨n, hn⟩ := infer_few (s := s) hcount
    rw [hn]

/-! ## Acts that keep what is remembered -/

/-- An act that leaves what is remembered as it is, whatever it comes to. -/
def Keeps (act : Act α) : Prop := ∀ s, (act.run.run s).2.inferred = s.inferred

theorem Keeps.bind_leaves {act : Act α} {next : α → Act β} (h : ∀ a, Keeps (next a)) (s : Survey) :
    ((act >>= next).run.run s).2.inferred = (act.run.run s).2.inferred := by
  rw [bind_eq]
  rcases act.run.run s with ⟨r, left⟩
  cases r with
  | ok a => exact h a left
  | error f => rfl

theorem Keeps.bind {act : Act α} {next : α → Act β} (hact : Keeps act) (h : ∀ a, Keeps (next a)) :
    Keeps (act >>= next) := fun s => (Keeps.bind_leaves h s).trans (hact s)

theorem keeps_pure (a : α) : Keeps (pure a) := fun _ => rfl

theorem keeps_lift (r : Except Fault α) : Keeps (liftExcept r) := by
  intro s
  rw [lift_run]

theorem keeps_say (message : Text) : Keeps (say message) := by
  intro s
  rw [say_eq]
  split <;> rfl

theorem keeps_announce (activity : Text) : Keeps (announce activity) := by
  intro s
  have hrun : (announce activity).run.run s = (say (("[bold blue]" : Text) ++ activity ++
      Text.decimal s.paths.length ++ " files...[/bold blue]")).run.run s := rfl
  rw [hrun]
  exact keeps_say _ s

theorem keeps_countSamples : Keeps countSamples := by
  refine (keeps_announce _).bind fun _ s => ?_
  show ((liftExcept s.feed.all >>= fun samples => pure samples.length : Act Nat).run.run
    s).2.inferred = _
  rw [lift_bind_run]
  split <;> rfl

theorem keeps_writeFile (path content : Text) : Keeps (writeFile path content) := by
  intro s
  rw [writeFile_run]
  split
  · rfl
  · split
    · rfl
    · split <;> rfl

theorem keeps_writeShape (output : Text) (settings : Settings) (shape : Shape) :
    Keeps (writeShape output settings shape) :=
  (keeps_lift _).bind fun _ => (keeps_say _).bind fun _ => (keeps_lift _).bind fun _ =>
    (keeps_writeFile _ _).bind fun _ => (keeps_say _).bind fun _ => keeps_pure _

theorem keeps_printTable (shape : Shape) : Keeps (printTable shape) := by
  intro s
  rw [printTable_run]
  split <;> rfl

/-- **Printing a shape that is remembered reads no file**: with other files it comes to the same. -/
theorem printShape_withFolder (hshape : s.inferred ≠ none) (folder : Folder) :
    (printShape count).run.run (s.withFolder folder) =
      (((printShape count).run.run s).1, ((printShape count).run.run s).2.withFolder folder) := by
  obtain ⟨shape, hshape⟩ := Option.ne_none_iff_exists'.1 hshape
  have hother : (s.withFolder folder).inferred = some shape := hshape
  simp only [printShape_run, hshape, hother, printTable_run]
  cases Console.table (shapeTable shape) <;> rfl

/-! ## Calls -/

/-- What a survey is used for. -/
inductive Call where
  | infer (count : Option Int)
  | printShape (count : Option Int)
  | countSamples
  | writeDefinitions (output : Text) (settings : Settings) (count : Option Int)

namespace Call

/-- The survey that a call leaves, whether it succeeds or fails. -/
def leaves (s : Survey) : Call → Survey
  | infer count => ((Survey.infer count).run.run s).2
  | printShape count => ((Survey.printShape count).run.run s).2
  | countSamples => (Survey.countSamples.run.run s).2
  | writeDefinitions output settings count =>
    ((Survey.writeDefinitions output settings count).run.run s).2

/-- The inference that a call begins with, given the shape that was inferred last. Counting begins
with none, and printing only while there is no shape. -/
def asks (latest : Option Shape) : Call → Option (Option Int)
  | infer count | writeDefinitions _ _ count => some count
  | printShape count => if latest.isNone then some count else none
  | countSamples => none

end Call

variable {c : Call}

/-- A call that begins with an inference leaves what this inference leaves. -/
theorem remembers_of_asks (h : c.asks s.inferred = some count) :
    (c.leaves s).inferred = ((infer count).run.run s).2.inferred := by
  cases c with
  | infer _ =>
    cases h
    rfl
  | printShape _ =>
    rw [Call.asks] at h
    split at h
    · next hnone =>
      cases h
      rw [Call.leaves, printShape_run, Option.isNone_iff_eq_none.1 hnone]
      exact Keeps.bind_leaves keeps_printTable s
    · cases h
  | countSamples => cases h
  | writeDefinitions output settings _ =>
    cases h
    rw [Call.leaves, writeDefinitions_eq]
    exact Keeps.bind_leaves (keeps_writeShape output settings) s

/-- A call that begins with no inference leaves what is remembered as it is. -/
theorem remembers_of_idle (h : c.asks s.inferred = none) : (c.leaves s).inferred = s.inferred := by
  cases c with
  | infer _ | writeDefinitions _ _ _ => cases h
  | countSamples => exact keeps_countSamples s
  | printShape _ =>
    cases hshape : s.inferred with
    | none =>
      rw [hshape] at h
      cases h
    | some shape =>
      rw [Call.leaves, printShape_run, hshape]
      exact (keeps_printTable shape s).trans hshape

theorem remembers_of_completes (h : c.asks s.inferred = some count) (hc : s.Completes count shape) :
    (c.leaves s).inferred = some shape := by
  rw [remembers_of_asks h, remembers_infer, completes_iff.1 hc]

theorem remembers_of_fails (h : c.asks s.inferred = some count)
    (hf : ∀ shape, ¬ s.Completes count shape) : (c.leaves s).inferred = s.inferred := by
  rw [remembers_of_asks h, remembers_infer]
  split
  · next shape hshape => exact absurd (completes_iff.2 hshape) (hf shape)
  · rfl

/-! ## Runs -/

/-- What happens to a survey. -/
inductive Turn where
  | call (c : Call)
  /-- Its files become others. -/
  | files (folder : Folder)

/-- The survey after a turn. -/
def after (s : Survey) : Turn → Survey
  | .call c => c.leaves s
  | .files folder => s.withFolder folder

/-- The survey after some turns in a row. -/
def run (s : Survey) (turns : List Turn) : Survey := turns.foldl after s

theorem run_append_singleton (s : Survey) (turns : List Turn) (turn : Turn) :
    s.run (turns ++ [turn]) = (s.run turns).after turn := List.foldl_append

/-- **The shape of the latest inference that completed** in the course of some turns. What a survey
remembers is not asked. -/
inductive Latest (s : Survey) : List Turn → Option Shape → Prop
  | start : Latest s [] none
  | files {turns : List Turn} {latest : Option Shape} (folder : Folder)
    (h : Latest s turns latest) : Latest s (turns ++ [.files folder]) latest
  /-- A call that begins with no inference. -/
  | idle {turns : List Turn} {latest : Option Shape} {c : Call} (h : Latest s turns latest)
    (hc : c.asks latest = none) : Latest s (turns ++ [.call c]) latest
  /-- The inference that a call begins with fails. -/
  | fails {turns : List Turn} {latest : Option Shape} {c : Call} {count : Option Int}
    (h : Latest s turns latest) (hc : c.asks latest = some count)
    (hf : ∀ shape, ¬ (s.run turns).Completes count shape) : Latest s (turns ++ [.call c]) latest
  /-- The inference that a call begins with completes, whatever the call comes to afterwards. -/
  | completes {turns : List Turn} {latest : Option Shape} {c : Call} {count : Option Int}
    {shape : Shape} (h : Latest s turns latest) (hc : c.asks latest = some count)
    (hs : (s.run turns).Completes count shape) : Latest s (turns ++ [.call c]) (some shape)

variable {turns : List Turn} {latest : Option Shape}

theorem Latest.eq (h : Latest s turns latest) (hstart : s.inferred = none) :
    (s.run turns).inferred = latest := by
  induction h with
  | start => exact hstart
  | files folder _ ih =>
    rw [run_append_singleton]
    exact ih
  | idle _ hc ih =>
    rw [run_append_singleton, ← ih]
    exact remembers_of_idle (ih ▸ hc)
  | fails _ hc hf ih =>
    rw [run_append_singleton, ← ih]
    exact remembers_of_fails (ih ▸ hc) hf
  | completes _ hc hs ih =>
    rw [run_append_singleton]
    exact remembers_of_completes (ih ▸ hc) hs

theorem latest_inferred (hstart : s.inferred = none) (turns : List Turn) :
    Latest s turns (s.run turns).inferred := by
  induction turns using List.reverseRecOn with
  | nil =>
    show Latest s [] s.inferred
    rw [hstart]
    exact .start
  | append_singleton turns turn ih =>
    rw [run_append_singleton]
    cases turn with
    | files folder => exact .files folder ih
    | call c =>
      show Latest s _ (c.leaves (s.run turns)).inferred
      cases hasks : c.asks (s.run turns).inferred with
      | none =>
        rw [remembers_of_idle hasks]
        exact .idle ih hasks
      | some count =>
        -- the inference decides, whatever the call does behind it
        by_cases hcompletes : ∃ shape, (s.run turns).Completes count shape
        · obtain ⟨shape, hshape⟩ := hcompletes
          rw [remembers_of_completes hasks hshape]
          exact .completes ih hasks hshape
        · rw [not_exists] at hcompletes
          rw [remembers_of_fails hasks hcompletes]
          exact .fails ih hasks hcompletes

theorem inferred_of_ofPaths {w : Workspace} {depth : Option Int} {paths : List Text}
    (h : ofPaths w depth paths = .ok s) : s.inferred = none := by
  unfold ofPaths at h
  dsimp only at h
  split at h
  · cases h
  · cases h
    rfl

/-- A folder with one file of samples on lines. -/
def oneFile (content : String) : Folder := { files := [("a.jsonl", Text.utf8 content)] }

/-- A survey of one number. -/
def oneNumber : Survey where
  paths := ["a.jsonl"]
  depth := some 100
  workspace := { folder := oneFile "1\n" }

/-- An inference that completes, and calls after the file was spoilt, of which one begins with an
inference that fails. -/
def spoiltFile : List Turn :=
  [.call (.infer none), .files (oneFile "\x7b\n"),
   .call (.writeDefinitions "o.ts" ⟨.string "typescript", "Root", true, by decide⟩ none),
   .call .countSamples, .call (.printShape (some 1))]

end Survey

end TypeSketch
