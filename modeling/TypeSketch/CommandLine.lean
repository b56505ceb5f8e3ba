import TypeSketch.CommandLine.Request
import TypeSketch.Json.Write
import TypeSketch.Shape.Record
import TypeSketch.Survey
import TypeSketch.Yaml.Write

/-!
# The program

* `Outcome`: how something ends that is done with samples. What goes wrong is printed and gives the
  exit code 1; an interruption gives 130.
* `CommandLine.run`: what the program does with its arguments in a workspace. Arguments that make no
  sense give the exit code 2.
-/

namespace TypeSketch.CommandLine

/-- What the program leaves behind. -/
structure Report where
  code : Nat
  /-- What is printed beside the console: help. -/
  help : Text := []
  /-- What is written about arguments that make no sense. -/
  complaint : Text := []
  /-- Whether reading the arguments ended the program. -/
  endedEarly : Bool := false
  workspace : Workspace

/-- The version of the program. -/
def version : Text := "0.1.0"

/-- The table of the output formats. -/
def formatTable : Table :=
  { title := "Output Formats"
    columns :=
      [⟨"Format", Target.all.map Target.name⟩,
       ⟨"Dependencies", Target.all.map fun t =>
         if t.dependencies.isEmpty then ("-" : Text) else Text.join ", " t.dependencies⟩] }

/-- Prints some lines. -/
def print (lines : Text) : Survey.Act Unit :=
  modify fun s => { s with workspace := s.workspace.print lines }

/-- Generates type definitions from the samples of a survey. -/
def generateFrom (options : Options) (output : Option Text) (count : Option Int) :
    Survey.Act Unit := do
  let settings ← liftExcept options.settle
  match output with
  | some (c :: rest) =>
    let _ ← Survey.writeDefinitions (c :: rest) settings count
  | _ =>
    let shape ← Survey.infer count
    let generated ← liftExcept (generate shape settings)
    print (Console.cropped generated.content)

/-- Prints the shape of the samples of a survey. -/
def printShape (form : ShapeForm) (count : Option Int) : Survey.Act Unit := do
  match form with
  | .table => Survey.printShape count
  | .json => print (Console.unwrapped (Json.indented (← Survey.infer count).toRecord))
  | .yaml => print (Console.plain (Yaml.document (← Survey.infer count).toRecord))

/-- How something that is done with samples ends. -/
inductive Outcome where
  | finished
  | failed (fault : Fault)
  /-- The user interrupts it, at any point. -/
  | interrupted

/-- The exit code that an outcome gives. -/
def Outcome.code : Outcome → Nat
  | finished => 0
  | failed _ => 1
  | interrupted => 130

/-- How a fault is reported. What a streamed document lacks is told in the words of its reader. -/
def told (wording : Text) : Fault → Text
  | .incompleteDocument => wording
  | fault => fault.message

/-- The message with markup that an outcome is reported with. -/
def Outcome.message? (wording : Text) : Outcome → Option Text
  | finished => none
  | failed fault => some (("[bold red]Error: " : Text) ++ told wording fault ++ "[/bold red]")
  | interrupted => some "\n[yellow]Interrupted.[/yellow]"

/-- How something that is done with samples ends, and the workspace behind it. -/
def surveyed (w : Workspace) (sampling : Sampling) (act : Survey.Act Unit) : Outcome × Workspace :=
  match Survey.ofPaths w sampling.depth sampling.files with
  | .error fault => (.failed fault, w)
  | .ok survey =>
    match act.run.run survey with
    | (.ok (), after) => (.finished, after.workspace)
    | (.error fault, after) => (.failed fault, after.workspace)

/-- The report on an outcome. Its message is printed, and the markup in it may itself be faulty. -/
def reportOf (wording : Text) (ended : Outcome × Workspace) : Except Fault Report := do
  let (outcome, w) := ended
  let workspace ← match outcome.message? wording with
    | none => pure w
    | some message => w.say message
  pure { code := outcome.code, workspace }

/-- What the program does when it is asked. -/
def perform (wording : Text) (w : Workspace) : Request → Except Fault Report
  | .version => do
    let workspace ← w.say (("jsontypegen version " : Text) ++ version)
    pure { code := 0, workspace }
  | .overview => .ok { code := 0, help := Scope.program.help, workspace := w }
  | .formats => do
    let lines ← Console.table formatTable
    pure { code := 0, workspace := w.print lines }
  | .generate sampling options output =>
    reportOf wording (surveyed w sampling (generateFrom options output sampling.count))
  | .schema sampling form =>
    reportOf wording (surveyed w sampling (printShape form sampling.count))

/-- What the program does when it stops over its arguments. -/
def stopped (w : Workspace) : Stop → Report
  | .help s => { code := 0, help := s.help, endedEarly := true, workspace := w }
  | .refused s f =>
    { code := 2
      complaint := s.usage ++ s.title ++ ": error: " ++ f.message ++ "\n"
      endedEarly := true
      workspace := w }

/-- What the program does with its arguments in a workspace. The reader of streamed documents has
its own words for what one lacks. -/
def run (w : Workspace) (arguments : List Text)
    (wording : Text := Fault.incompleteDocument.message) : Except Fault Report :=
  match Request.ofArguments arguments with
  | .ok request => perform wording w request
  | .error stop => .ok (stopped w stop)

end TypeSketch.CommandLine
