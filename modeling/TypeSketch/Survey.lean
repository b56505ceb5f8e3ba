import TypeSketch.Generate
import TypeSketch.Samples.Document
import TypeSketch.Samples.Lines
import TypeSketch.Samples.Sheet
import TypeSketch.Shape.Paths
import TypeSketch.Workspace

/-!
# Surveys of sample files

A survey reads samples out of some files, one after another, and keeps the shape that it inferred
last. Every operation leaves its survey behind, also when it fails.

* `Survey.ofPaths`: a survey of files, all of which must exist.
* `Survey.feed`: the samples of the files as they are at that moment.
* `Survey.infer`: the shape of the first samples.
* `Survey.printShape`, `Survey.countSamples`, `Survey.writeDefinitions`: what else is done with
  them.
-/

namespace TypeSketch

/-- Some sample files and what is known of them. -/
structure Survey where
  /-- The paths of the files in normal form. -/
  paths : List Text
  /-- How deep a sample may nest. -/
  depth : Option Int
  /-- The shape that was inferred last. -/
  inferred : Option Shape := none
  workspace : Workspace

namespace Survey

/-- A survey of files, none of which may be missing. -/
def ofPaths (workspace : Workspace) (depth : Option Int) (paths : List Text) :
    Except Fault Survey :=
  let paths := paths.map FilePath.normalize
  match paths.find? fun p => !workspace.folder.exists? p with
  | some missing => .error (.missingFile missing)
  | none => .ok { paths, depth, workspace }

/-- How the samples of a file are written. -/
inductive Layout where
  | document
  | lines
  | sheet
deriving DecidableEq

/-- The endings of files with one sample on each line. -/
def linesSuffixes : List Text := [".jsonl", ".ndjson"]

/-- How the samples of a file are written, by the ending of its name. -/
def Layout.ofPath (path : Text) : Layout :=
  let suffix := (FilePath.suffix path).toLower
  if linesSuffixes.contains suffix then .lines
  else if suffix = Text.ofString ".csv" then .sheet
  else .document

/-- The samples of some bytes. -/
def Layout.feed : Layout → List UInt8 → Feed
  | .document => Document.feed
  | .lines => Lines.feed
  | .sheet => Sheet.feed

/-- The samples of a file. -/
def feedOf (folder : Folder) (path : Text) : Feed :=
  match folder.read path with
  | .ok bytes => (Layout.ofPath path).feed bytes
  | .error fault => .failing fault

/-- The samples of all files, each opened when the ones in front of it are read. -/
def feed (s : Survey) : Feed := .concat (s.paths.map (feedOf s.workspace.folder))

/-- Something done with a survey. -/
abbrev Act (α : Type) := ExceptT Fault (StateM Survey) α

/-- Prints a message. -/
def say (message : Text) : Act Unit := do
  let s ← get
  let workspace ← liftExcept (s.workspace.say message)
  set { s with workspace }

/-- Prints how many files something is done with. -/
def announce (activity : Text) : Act Unit := do
  let s ← get
  say (("[bold blue]" : Text) ++ activity ++ Text.decimal s.paths.length ++ " files...[/bold blue]")

/-- The shape of the first samples, so many of them or all. -/
def infer (count : Option Int) : Act Shape := do
  match count with
  | some n => if n < 1 then throw (.sampleCount n)
  | none => pure ()
  announce "Inferring schema from "
  let s ← get
  let samples ← liftExcept (s.feed.collect (count.map Int.toNat))
  let shape ← liftExcept (Shape.inferAll s.depth samples)
  set { s with inferred := some shape }
  pure shape

/-- The table of a shape and all that lies below it. -/
def shapeTable (shape : Shape) : Table :=
  let rows : List Shape.Row := ⟨"<root>", shape, false⟩ :: shape.paths []
  let mark (b : Bool) : Text := if b then "yes" else ""
  { title := "Inferred Schema"
    columns :=
      [⟨"Field", rows.map (·.path)⟩, ⟨"Type", rows.map (·.shape.kind.name)⟩,
       ⟨"Required", rows.map fun r => mark r.required⟩,
       ⟨"Nullable", rows.map fun r => mark r.shape.nullable⟩] }

/-- Prints the shape that was inferred last, or is inferred now. -/
def printShape (count : Option Int) : Act Unit := do
  let shape ← match (← get).inferred with
    | some shape => pure shape
    | none => infer count
  let lines ← liftExcept (Console.table (shapeTable shape))
  modify fun s => { s with workspace := s.workspace.print lines }

/-- The number of samples in all files. -/
def countSamples : Act Nat := do
  announce "Counting items in "
  let samples ← liftExcept (← get).feed.all
  pure samples.length

/-- Writes a text file. A file whose text has no encoding is left empty. -/
def writeFile (path content : Text) : Act Unit := do
  let s ← get
  let put (bytes : List UInt8) : Act Unit := do
    let folder ← liftExcept (s.workspace.folder.write path bytes)
    set { s with workspace := { s.workspace with folder } }
  -- The file is emptied before its text is encoded.
  put []
  let _ ← liftExcept (byteSize content)
  put content.utf8

/-- Infers the shape of the first samples and writes its type definitions to a file. -/
def writeDefinitions (output : Text) (settings : Settings) (count : Option Int) :
    Act Generated := do
  let shape ← infer count
  let target ← liftExcept (Target.ofValue settings.format)
  say (("[bold blue]Generating " : Text) ++ target.name ++ " definitions...[/bold blue]")
  let generated ← liftExcept (generate shape settings)
  writeFile output generated.content
  say (("[bold green]Generated type definitions in " : Text) ++ output ++ "[/bold green]")
  pure generated

end Survey

end TypeSketch
