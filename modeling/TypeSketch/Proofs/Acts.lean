import TypeSketch.Proofs.Sampling

/-!
# How acts run

An act on a survey consists of acts in a row, the first of which that fails ends it. What one leaves
behind is left also when it fails.

* `bind_eq`, `exists_of_bind`: an act in front of another one.
* `writeFile_run`, `printTable_run`, `printShape_run`: what is left behind.
* `writeDefinitions_eq`: inference, and `writeShape` behind it.
-/

namespace TypeSketch.Survey

variable {s : Survey} {count : Option Int} {α β : Type}

/-! ## Acts in a row -/

/-- An act in front of another one. -/
theorem bind_eq (act : Act α) (next : α → Act β) (s : Survey) :
    (act >>= next).run.run s = match act.run.run s with
      | (.ok a, left) => (next a).run.run left
      | (.error f, left) => (.error f, left) := by
  show (ExceptT.bindCont next (act.run.run s).1).run (act.run.run s).2 = _
  rcases act.run.run s with ⟨r, left⟩
  cases r <;> rfl

/-- Both acts of a row that succeeds succeed. -/
theorem exists_of_bind {act : Act α} {next : α → Act β} {b : β} {left : Survey}
    (h : (act >>= next).run.run s = (.ok b, left)) :
    ∃ a between, act.run.run s = (.ok a, between) ∧ (next a).run.run between = (.ok b, left) := by
  rw [bind_eq] at h
  split at h
  · next a between ha => exact ⟨a, between, ha, h⟩
  · cases h

theorem lift_run (r : Except Fault α) (s : Survey) : (liftExcept r : Act α).run.run s = (r, s) := by
  cases r <;> rfl

/-- Something that is no act comes first. -/
theorem lift_bind_run (r : Except Fault α) (next : α → Act β) (s : Survey) :
    (liftExcept r >>= next : Act β).run.run s = match r with
      | .ok a => (next a).run.run s
      | .error f => (.error f, s) := by
  rw [bind_eq, lift_run]
  cases r <;> rfl

/-- Something that comes first in a row that succeeds succeeds. -/
theorem exists_of_lift_bind {r : Except Fault α} {next : α → Act β} {b : β} {left : Survey}
    (h : (liftExcept r >>= next : Act β).run.run s = (.ok b, left)) :
    ∃ a, r = .ok a ∧ (next a).run.run s = (.ok b, left) := by
  rw [lift_bind_run] at h
  split at h
  · next a => exact ⟨a, rfl, h⟩
  · cases h

/-! ## Messages and files -/

/-- What printing a message leaves behind. -/
theorem say_eq (message : Text) (s : Survey) : (say message).run.run s =
    match s.workspace.say message with
    | .error f => (.error f, s)
    | .ok workspace => (.ok (), { s with workspace }) := by
  have hrun : (say message).run.run s = (liftExcept (s.workspace.say message) >>= fun w =>
      set { s with workspace := w } : Act Unit).run.run s := rfl
  rw [hrun, lift_bind_run]
  cases s.workspace.say message <;> rfl

/-- A message that is printed leaves the files as they are. -/
theorem folder_of_say {message : Text} {left : Survey}
    (h : (say message).run.run s = (.ok (), left)) :
    left.workspace.folder = s.workspace.folder := by
  rw [say_eq] at h
  split at h
  · cases h
  · next w hw =>
    cases h
    exact Workspace.say_folder hw

/-- A survey whose files are others. -/
def withFolder (s : Survey) (folder : Folder) : Survey :=
  { s with workspace := { s.workspace with folder } }

/-- What writing a file leaves behind. -/
theorem writeFile_run (path content : Text) (s : Survey) : (writeFile path content).run.run s =
    match s.workspace.folder.write path [] with
    | .error f => (.error f, s)
    | .ok emptied =>
      match byteSize content with
      | .error f => (.error f, s.withFolder emptied)
      | .ok _ =>
        match s.workspace.folder.write path content.utf8 with
        | .error f => (.error f, s.withFolder emptied)
        | .ok written => (.ok (), s.withFolder written) := by
  let put (bytes : List UInt8) : Act Unit := do
    let folder ← liftExcept (s.workspace.folder.write path bytes)
    set { s with workspace := { s.workspace with folder } }
  have hrun : (writeFile path content).run.run s =
      (put [] >>= fun _ => liftExcept (byteSize content) >>= fun _ =>
        put content.utf8 : Act Unit).run.run s := rfl
  rw [hrun]
  simp only [put]
  cases s.workspace.folder.write path [] with
  | error f => rfl
  | ok emptied =>
    cases byteSize content with
    | error f => rfl
    | ok n =>
      cases s.workspace.folder.write path content.utf8 with
      | error f => rfl
      | ok written => rfl

/-! ## What is done with a shape -/

/-- Fewer than one sample is refused at once. -/
theorem infer_few (hcount : ¬ ∀ n ∈ count, 1 ≤ n) :
    ∃ n, (infer count).run.run s = (.error (.sampleCount n), s) := by
  simp only [not_forall, Option.mem_def, Int.not_le] at hcount
  obtain ⟨n, rfl, hn⟩ := hcount
  refine ⟨n, ?_⟩
  unfold infer
  simp only [if_pos hn]
  rfl

/-- Inference that succeeds announces itself and remembers the shape. -/
theorem left_of_infer {shape : Shape} {left : Survey}
    (h : (infer count).run.run s = (.ok shape, left)) :
    left = { s.announced "Inferring schema from " with inferred := some shape } := by
  by_cases hcount : ∀ n ∈ count, 1 ≤ n
  · rw [infer_run hcount] at h
    unfold concluded at h
    split at h
    · cases h
      rfl
    · cases h
  · obtain ⟨n, hn⟩ := infer_few (s := s) hcount
    rw [hn] at h
    cases h

/-- What is done with an inferred shape to write its definitions. -/
def writeShape (output : Text) (settings : Settings) (shape : Shape) : Act Generated := do
  let target ← liftExcept (Target.ofValue settings.format)
  say (("[bold blue]Generating " : Text) ++ target.name ++ " definitions...[/bold blue]")
  let generated ← liftExcept (generate shape settings)
  writeFile output generated.content
  say (("[bold green]Generated type definitions in " : Text) ++ output ++ "[/bold green]")
  pure generated

theorem writeDefinitions_eq (output : Text) (settings : Settings) (count : Option Int) :
    writeDefinitions output settings count = infer count >>= writeShape output settings := rfl

/-- Prints the table of a shape. -/
def printTable (shape : Shape) : Act Unit := do
  let lines ← liftExcept (Console.table (shapeTable shape))
  modify fun s => { s with workspace := s.workspace.print lines }

theorem printTable_run (shape : Shape) (s : Survey) : (printTable shape).run.run s =
    match Console.table (shapeTable shape) with
    | .error f => (.error f, s)
    | .ok lines => (.ok (), { s with workspace := s.workspace.print lines }) := by
  unfold printTable
  cases Console.table (shapeTable shape) <;> rfl

/-- The cells of the table of a shape: words of its own, the names of kinds, and paths. -/
theorem forall_mem_cells {p : Text → Prop} {shape : Shape} (hroot : p "<root>")
    (hkind : ∀ kind : Kind, p kind.name) (hyes : p "yes") (hno : p "")
    (hpath : ∀ row ∈ shape.paths [], p row.path) :
    ∀ c ∈ (shapeTable shape).columns, ∀ cell ∈ c.cells, p cell := by
  have hcells : ∀ f : Shape.Row → Text, (∀ row ∈ (⟨"<root>", shape, false⟩ :: shape.paths [] :
      List Shape.Row), p (f row)) → ∀ cell ∈ ((⟨"<root>", shape, false⟩ :: shape.paths [] :
      List Shape.Row).map f), p cell := by
    intro f hf cell hcell
    obtain ⟨row, hrow, rfl⟩ := List.mem_map.1 hcell
    exact hf row hrow
  have hmark : ∀ b : Bool, p (if b then "yes" else "") := by
    intro b
    cases b
    · exact hno
    · exact hyes
  refine List.forall_mem_cons.2 ⟨hcells _ (List.forall_mem_cons.2 ⟨hroot, hpath⟩), ?_⟩
  refine List.forall_mem_cons.2 ⟨hcells _ fun row _ => hkind row.shape.kind, ?_⟩
  refine List.forall_mem_cons.2 ⟨hcells _ fun row _ => hmark row.required, ?_⟩
  refine List.forall_mem_cons.2 ⟨hcells _ fun row _ => hmark row.shape.nullable, ?_⟩
  exact List.forall_mem_nil _

/-- The table is that of the shape that is remembered, or of one that is inferred. -/
theorem printShape_run : (printShape count).run.run s =
    match s.inferred with
    | some shape => (printTable shape).run.run s
    | none => (infer count >>= printTable).run.run s := by
  have hrun : (printShape count).run.run s = ((match s.inferred with
    | some shape => (pure shape : Act Shape) >>= printTable
    | none => infer count >>= printTable)).run.run s := rfl
  rw [hrun]
  cases s.inferred <;> rfl

end TypeSketch.Survey
