import TypeSketch.Survey

/-!
# Reading files in order

The files of a survey are read one after another. A file is opened only when the one in front of it
is at its end, and what lies behind the last sample that was delivered has not been looked at.

* `Feed.append_assoc`, `Feed.nil_append`, `Feed.append_nil`: feeds in a row.
* `Reading`, `Reading.Step`: how far the files are read, and the steps of reading on.
* `Reading.Delivers`: the samples that some steps deliver.
* `Reading.Delivers.feed_eq`: **what was delivered stands in front of what is still to be read.**
* `Reading.delivers_iff`, `Reading.delivers_done_iff`: everything in front of the first fault can be
  delivered, and without a fault the end is reached.
-/

namespace TypeSketch

namespace Feed

variable {a b : Feed}

@[simp] theorem nil_append (b : Feed) : ({} : Feed) ++ b = b := rfl

@[simp] theorem append_nil (a : Feed) : a ++ ({} : Feed) = a := by
  obtain ⟨vs, fault⟩ := a
  cases fault with
  | some f => rfl
  | none =>
    show ({ samples := vs ++ [] } : Feed) = _
    rw [List.append_nil]

theorem append_assoc (a b c : Feed) : a ++ b ++ c = a ++ (b ++ c) := by
  obtain ⟨vs, fault⟩ := a
  obtain ⟨ws, fault'⟩ := b
  cases fault with
  | some f => rfl
  | none =>
    cases fault' with
    | some f => rfl
    | none =>
      show ({ samples := vs ++ ws ++ c.samples, fault := c.fault } : Feed) = _
      rw [List.append_assoc]
      rfl

/-- A feed whose first sample is known. -/
theorem cons_append (v : Value) (vs : List Value) (fault : Option Fault) (b : Feed) :
    (⟨v :: vs, fault⟩ : Feed) ++ b = (⟨[v], none⟩ : Feed) ++ ((⟨vs, fault⟩ : Feed) ++ b) := by
  rw [← append_assoc]
  rfl

@[simp] theorem concat_cons (a : Feed) (feeds : List Feed) :
    concat (a :: feeds) = a ++ concat feeds := rfl

end Feed

namespace Survey

/-- How far the files are read: what the open file still delivers, and the files behind it. -/
structure Reading where
  file : Feed
  later : List Text

namespace Reading

variable {folder : Folder} {r r' : Reading} {vs : List Value}

/-- Before anything is read. -/
def start (paths : List Text) : Reading := ⟨{}, paths⟩

/-- Behind the last file. -/
def done : Reading := ⟨{}, []⟩

/-- All that there is still to be read. -/
def feed (folder : Folder) (r : Reading) : Feed := r.file ++ .concat (r.later.map (feedOf folder))

/-- A step of reading on, and the sample that it delivers. -/
inductive Step (folder : Folder) : Reading → Option Value → Reading → Prop where
  /-- The open file delivers a sample. -/
  | sample (v : Value) (vs : List Value) (fault : Option Fault) (later : List Text) :
    Step folder ⟨⟨v :: vs, fault⟩, later⟩ (some v) ⟨⟨vs, fault⟩, later⟩
  /-- The open file is at its end, and the next one is opened. -/
  | next (path : Text) (later : List Text) :
    Step folder ⟨{}, path :: later⟩ none ⟨feedOf folder path, later⟩

/-- **The samples that some steps of reading deliver.** -/
inductive Delivers (folder : Folder) : Reading → List Value → Reading → Prop where
  | nil (r : Reading) : Delivers folder r [] r
  | cons {r r' r'' : Reading} {v : Option Value} {vs : List Value} :
    Step folder r v r' → Delivers folder r' vs r'' → Delivers folder r (v.toList ++ vs) r''

theorem start_feed (s : Survey) : (start s.paths).feed s.workspace.folder = s.feed := rfl

/-- A step takes at most one sample off what is to be read. -/
theorem Step.feed_eq {v : Option Value} (h : Step folder r v r') :
    r.feed folder = (⟨v.toList, none⟩ : Feed) ++ r'.feed folder := by
  cases h with
  | sample v vs fault later => exact Feed.cons_append v vs fault _
  | next path later => rfl

/-- **What was delivered stands in front of what is still to be read.** -/
theorem Delivers.feed_eq (h : Delivers folder r vs r') :
    r.feed folder = (⟨vs, none⟩ : Feed) ++ r'.feed folder := by
  induction h with
  | nil r => rfl
  | @cons r₁ r₂ r₃ v ws hstep hrest ih =>
    have hjoin : (⟨v.toList, none⟩ : Feed) ++ (⟨ws, none⟩ : Feed) = ⟨v.toList ++ ws, none⟩ := rfl
    rw [hstep.feed_eq, ih, ← Feed.append_assoc, hjoin]

theorem Delivers.trans {r'' : Reading} {ws : List Value} (h : Delivers folder r vs r')
    (hbehind : Delivers folder r' ws r'') : Delivers folder r (vs ++ ws) r'' := by
  induction h with
  | nil r => exact hbehind
  | cons hstep _ ih =>
    rw [List.append_assoc]
    exact .cons hstep (ih hbehind)

theorem delivers_file (vs ws : List Value) (fault : Option Fault) (later : List Text) :
    Delivers folder ⟨⟨vs ++ ws, fault⟩, later⟩ vs ⟨⟨ws, fault⟩, later⟩ := by
  induction vs with
  | nil => exact .nil _
  | cons v vs ih => exact .cons (.sample v (vs ++ ws) fault later) ih

theorem delivers_next {path : Text} {later : List Text}
    (h : Delivers folder ⟨feedOf folder path, later⟩ vs r) :
    Delivers folder ⟨{}, path :: later⟩ vs r := .cons (.next path later) h

theorem exists_delivers_file {file : Feed} (h : vs <+: file.samples) (later : List Text) :
    ∃ r', Delivers folder ⟨file, later⟩ vs r' := by
  obtain ⟨us, fault⟩ := file
  obtain ⟨ws, rfl⟩ := h
  exact ⟨_, delivers_file vs ws fault later⟩

/-- A file without a fault is delivered whole. -/
theorem delivers_whole (vs : List Value) (later : List Text) :
    Delivers folder ⟨⟨vs, none⟩, later⟩ vs ⟨{}, later⟩ := by
  have h : Delivers folder ⟨⟨vs ++ [], none⟩, later⟩ vs ⟨{}, later⟩ :=
    delivers_file vs [] none later
  rwa [List.append_nil] at h

/-- All samples in front of the first fault can be delivered. -/
theorem exists_delivers (h : vs <+: (r.feed folder).samples) : ∃ r', Delivers folder r vs r' := by
  -- on the files behind the open one: either it has enough, or it is delivered whole first
  obtain ⟨file, later⟩ := r
  induction later generalizing file vs with
  | nil =>
    have hall : feed folder ⟨file, []⟩ = file := Feed.append_nil file
    rw [hall] at h
    exact exists_delivers_file h _
  | cons path later ih =>
    obtain ⟨us, fault⟩ := file
    cases fault with
    | some f => exact exists_delivers_file h _
    | none =>
      have h : vs <+: us ++ (feed folder ⟨feedOf folder path, later⟩).samples := h
      rcases List.prefix_or_prefix_of_prefix h (List.prefix_append us _) with hin | ⟨ws, rfl⟩
      · exact exists_delivers_file hin _
      · obtain ⟨r', hr'⟩ := ih (feedOf folder path) ((List.prefix_append_right_inj us).1 h)
        exact ⟨r', (delivers_whole us _).trans (delivers_next hr')⟩

/-- Without a fault the end is reached. -/
theorem delivers_done (h : (r.feed folder).fault = none) :
    Delivers folder r (r.feed folder).samples done := by
  obtain ⟨file, later⟩ := r
  induction later generalizing file with
  | nil =>
    have hall : feed folder ⟨file, []⟩ = file := Feed.append_nil file
    rw [hall] at h ⊢
    obtain ⟨us, fault⟩ := file
    obtain rfl : fault = none := h
    exact delivers_whole us []
  | cons path later ih =>
    obtain ⟨us, fault⟩ := file
    cases fault with
    | some f => cases h
    | none => exact (delivers_whole us _).trans (delivers_next (ih (feedOf folder path) h))

theorem delivers_iff : (∃ r', Delivers folder r vs r') ↔ vs <+: (r.feed folder).samples := by
  refine ⟨?_, exists_delivers⟩
  rintro ⟨r', h⟩
  rw [h.feed_eq]
  exact List.prefix_append vs _

theorem delivers_done_iff : Delivers folder r vs done ↔ r.feed folder = ⟨vs, none⟩ := by
  constructor
  · intro h
    rw [h.feed_eq]
    exact Feed.append_nil _
  · intro h
    have hdone : Delivers folder r (r.feed folder).samples done :=
      delivers_done (congrArg Feed.fault h)
    rwa [h] at hdone

end Reading

end Survey

end TypeSketch
