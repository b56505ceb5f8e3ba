import TypeSketch.Proofs.Delivery
import TypeSketch.Proofs.Messages

/-!
# Inferring from the first samples

Inference asks the files of a survey for so many samples, or for all. It goes by the samples that it
asked for alone.

* `announce_run`: announcing does nothing but print.
* `infer_run`: what inference leaves behind.
* `Supplies`: reading the files in order delivers as many samples as are asked for, or all.
* `infer_supplied`: **only the samples that are asked for count.**
-/

namespace TypeSketch.Survey

variable {s : Survey} {count : Option Int} {vs : List Value}

/-- What is announced to be done with the files. -/
def announcement (s : Survey) (activity : Text) : Text :=
  activity ++ (Text.decimal s.paths.length ++ (" files..." : Text))

/-- The survey after it was announced what is done with its files. -/
def announced (s : Survey) (activity : Text) : Survey :=
  let shown := Wrap.lines Console.width .fold (Markup.printable (s.announcement activity))
  { s with workspace := s.workspace.print (Console.printed shown) }

/-- An act goes on from the survey that an act in front of it left. -/
theorem bind_run {α β : Type} {a : α} {s' : Survey} {act : Act α} (h : act.run.run s = (.ok a, s'))
    (next : α → Act β) : (act >>= next).run.run s = (next a).run.run s' := by
  have hbind : (act >>= next).run.run s =
      (ExceptT.bindCont next (act.run.run s).1).run (act.run.run s).2 := rfl
  rw [hbind, h]
  rfl

theorem say_run {message : Text} {w : Workspace} (h : s.workspace.say message = .ok w) :
    (say message).run.run s = (.ok (), { s with workspace := w }) := by
  show ((liftExcept (s.workspace.say message) >>= fun w => set { s with workspace := w } :
    Act Unit)).run.run s = _
  rw [h]
  rfl

/-- Announcing does nothing but print. -/
theorem announce_run {activity : Text} (h : Markup.Unmarked activity) :
    (announce activity).run.run s = (.ok (), s.announced activity) := by
  have hunmarked : Markup.Unmarked (s.announcement activity) :=
    h.append ((Markup.unmarked_decimal _).append (by decide))
  have hmessage : ("[bold blue]" : Text) ++ activity ++ Text.decimal s.paths.length ++
      " files...[/bold blue]" = Markup.styled "bold blue" (s.announcement activity) := by
    have hback : Text.ofString " files...[/bold blue]" =
        Text.ofString " files..." ++ Markup.tagOnto (('/' : CodePoint) :: "bold blue") [] := by
      decide
    have hfront : Text.ofString "[bold blue]" = Markup.tagOnto "bold blue" [] := by decide
    unfold announcement Markup.styled
    rw [hback, hfront]
    simp [Markup.tagOnto]
  have hsaid : s.workspace.say (Markup.styled "bold blue" (s.announcement activity)) =
      .ok (s.announced activity).workspace := by
    unfold Workspace.say
    rw [Console.markedUp_styled Markup.isTagName_boldBlue hunmarked]
    rfl
  have hact : (announce activity).run.run s =
      (say (Markup.styled "bold blue" (s.announcement activity))).run.run s := by
    rw [← hmessage]
    rfl
  rw [hact, say_run hsaid]
  rfl

/-- The survey after inference came to a result. A fault leaves what was inferred before. -/
def concluded (s : Survey) : Except Fault Shape → Except Fault Shape × Survey
  | .ok shape => (.ok shape, { s with inferred := some shape })
  | .error f => (.error f, s)

@[simp] theorem concluded_fst (r : Except Fault Shape) : (s.concluded r).1 = r := by cases r <;> rfl

/-- What inference does behind its announcement. -/
def inferAnnounced (count : Option Int) : Act Shape := do
  let s ← get
  let samples ← liftExcept (s.feed.collect (count.map Int.toNat))
  let shape ← liftExcept (Shape.inferAll s.depth samples)
  set { s with inferred := some shape }
  pure shape

theorem infer_eq (hcount : ∀ n ∈ count, 1 ≤ n) :
    infer count = announce "Inferring schema from " >>= fun _ => inferAnnounced count := by
  cases count with
  | none => rfl
  | some n =>
    have hn : ¬ n < 1 := Int.not_lt.2 (hcount n rfl)
    unfold infer
    simp only [if_neg hn]
    rfl

theorem inferAnnounced_run : (inferAnnounced count).run.run s =
    s.concluded (s.feed.collect (count.map Int.toNat) >>= Shape.inferAll s.depth) := by
  show ((liftExcept (s.feed.collect _) >>= fun samples => _ : Act Shape)).run.run _ = _
  cases s.feed.collect (count.map Int.toNat) with
  | error f => rfl
  | ok samples =>
    show ((liftExcept (Shape.inferAll s.depth samples) >>= fun shape => _ : Act Shape)).run.run _ =
      s.concluded (Shape.inferAll s.depth samples)
    cases Shape.inferAll s.depth samples with
    | error f => rfl
    | ok shape => rfl

/-- What inference leaves behind. -/
theorem infer_run (hcount : ∀ n ∈ count, 1 ≤ n) : (infer count).run.run s =
    (s.announced "Inferring schema from ").concluded
      (s.feed.collect (count.map Int.toNat) >>= Shape.inferAll s.depth) := by
  have hsaid : (announce "Inferring schema from ").run.run s = (.ok (), s.announced _) :=
    announce_run (by decide)
  rw [infer_eq hcount, bind_run hsaid]
  exact inferAnnounced_run

/-- The first samples, so many of them or all. -/
def firstOf (count : Option Int) (vs : List Value) : List Value :=
  match count with
  | none => vs
  | some n => vs.take n.toNat

/-- **Reading the files in order delivers some samples first**, which are as many as are asked for,
or all that there are. What lies behind them may be anything. -/
def Supplies (s : Survey) (count : Option Int) (vs : List Value) : Prop :=
  ∃ r, Reading.Delivers s.workspace.folder (.start s.paths) vs r ∧
    (r = .done ∨ ∃ n ∈ count, n ≤ vs.length)

theorem Supplies.collect (h : s.Supplies count vs) (hcount : ∀ n ∈ count, 1 ≤ n) :
    s.feed.collect (count.map Int.toNat) = .ok (firstOf count vs) := by
  obtain ⟨r, hr, henough⟩ := h
  have hfeed : s.feed = (⟨vs, none⟩ : Feed) ++ r.feed s.workspace.folder := hr.feed_eq
  -- at the end all samples are there; otherwise what follows enough of them does not matter
  rcases henough with rfl | ⟨n, hn, hlength⟩
  · have hall : s.feed = ⟨vs, none⟩ := hfeed.trans (Feed.append_nil _)
    rw [hall]
    cases count with
    | none => rfl
    | some n =>
      show (if n.toNat ≤ vs.length then _ else _) = _
      split
      · rfl
      · next hfew =>
        show Except.ok vs = .ok (vs.take n.toNat)
        rw [List.take_of_length_le (by omega)]
  · obtain rfl : count = some n := hn
    rw [hfeed]
    exact Feed.collect_append_of_le (by simpa using hlength)

/-- **Only the samples that are asked for count.** Where reading the files in order delivers `n`
samples, or reaches the end of the last file, inference from the first `n` comes to what the shape
of these comes to, and to nothing else than another survey whose files deliver the same ones first,
whatever there is behind them. -/
theorem infer_supplied (hcount : ∀ n ∈ count, 1 ≤ n) (h : s.Supplies count vs) :
    (infer count).run.run s = (s.announced "Inferring schema from ").concluded
        (Shape.inferAll s.depth (firstOf count vs)) ∧
      (vs = [] → ((infer count).run.run s).1 = .error .noSamples) ∧
      ∀ (s' : Survey) (vs' : List Value), s'.depth = s.depth → s'.Supplies count vs' →
        firstOf count vs' = firstOf count vs →
          ((infer count).run.run s').1 = ((infer count).run.run s).1 := by
  have hrun : ∀ {s : Survey} {vs : List Value}, s.Supplies count vs → (infer count).run.run s =
      (s.announced "Inferring schema from ").concluded
        (Shape.inferAll s.depth (firstOf count vs)) := by
    intro s vs h
    rw [infer_run hcount, h.collect hcount]
    rfl
  refine ⟨hrun h, ?_, ?_⟩
  · rintro rfl
    have hnone : firstOf count [] = [] := by cases count <;> simp [firstOf]
    rw [hrun h, concluded_fst, hnone]
    rfl
  · intro s' vs' hdepth h' hsame
    rw [hrun h, hrun h', concluded_fst, concluded_fst, hdepth, hsame]

/-- A survey of a file that begins with two samples, and of one that is not there. -/
def twoLines (rest : String) : Survey where
  paths := ["a.jsonl", "b.json"]
  depth := some 100
  workspace := { folder := { files := [("a.jsonl", Text.utf8 ("null\ntrue\n" ++ rest))] } }

/-- Whether samples begin with those two. -/
def beginWithTwo : List Value → Bool
  | .null :: .bool true :: _ => true
  | _ => false

/-- It does not matter whether a malformed line follows the two samples or another sample. -/
theorem infer_supplied_twoLines : (∀ n ∈ some (2 : Int), 1 ≤ n) ∧
    (twoLines "\x7b\n").Supplies (some 2) [.null, .bool true] ∧
    ((infer (some 2)).run.run (twoLines "\x7b\n")).1 =
      Shape.inferAll (some 100) [.null, .bool true] ∧
    ((infer (some 2)).run.run (twoLines "3\n")).1 =
      ((infer (some 2)).run.run (twoLines "\x7b\n")).1 := by
  have hcount : ∀ n ∈ some (2 : Int), 1 ≤ n := by
    rintro n ⟨⟩
    decide
  have hsupplies : ∀ rest : String, beginWithTwo (twoLines rest).feed.samples = true →
      (twoLines rest).Supplies (some 2) [.null, .bool true] := by
    intro rest h
    unfold beginWithTwo at h
    split at h
    · next ws hws =>
      have hprefix : [.null, .bool true] <+: (twoLines rest).feed.samples := ⟨ws, hws.symm⟩
      rw [← Reading.start_feed] at hprefix
      obtain ⟨r, hr⟩ := Reading.delivers_iff.2 hprefix
      exact ⟨r, hr, .inr ⟨2, rfl, by decide⟩⟩
    · cases h
  have hbrace := hsupplies "\x7b\n" (by decide +kernel)
  obtain ⟨hrun, -, hsame⟩ := infer_supplied hcount hbrace
  refine ⟨hcount, hbrace, ?_, hsame _ _ rfl (hsupplies "3\n" (by decide +kernel)) rfl⟩
  rw [hrun, concluded_fst]
  rfl

end TypeSketch.Survey
