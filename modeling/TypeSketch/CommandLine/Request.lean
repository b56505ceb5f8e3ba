import TypeSketch.CommandLine.Scan
import TypeSketch.Generate
import TypeSketch.Text.Numeral

/-!
# Requests

* `Request`: what the program is asked to do.
* `Request.ofArguments`: the request that arguments make, or why the program stops over them.
-/

namespace TypeSketch

/-- How a shape is printed. -/
inductive ShapeForm where
  | table
  | json
  | yaml
deriving DecidableEq

/-- Which samples are read. -/
structure Sampling where
  files : List Text
  /-- How many samples are read at most. -/
  count : Option Int := ({} : Limits).samples
  depth : Option Int := ({} : Limits).depth

/-- What the program is asked to do. -/
inductive Request where
  | version
  /-- Say what can be asked. -/
  | overview
  | formats
  /-- Generate type definitions, printed unless there is an output file. -/
  | generate (sampling : Sampling) (options : Options) (output : Option Text)
  | schema (sampling : Sampling) (form : ShapeForm)

/-- The paths that a request names. -/
def Request.paths : Request → List Text
  | .version | .overview | .formats => []
  | .generate sampling _ output => sampling.files ++ output.toList
  | .schema sampling _ => sampling.files

/-- Why the program stops over its arguments. -/
inductive Stop where
  /-- Help is asked for. -/
  | help (s : Scope)
  | refused (s : Scope) (f : UsageFault)

/-- What flags and files were given to a command so far. -/
structure Given where
  options : Options := {}
  output : Option Text := none
  form : ShapeForm := .table
  sampling : Sampling := { files := [] }
  files : Option (List Text) := none
  surplus : List Text := []

namespace Given

/-- The positive integer that is given with a flag. -/
def positive (flag : Flag) (t : Text) : Except UsageFault (Option Int) :=
  match Text.toInt? t with
  | none => .error (.notInteger flag t)
  | some n => if n < 1 then .error (.tooSmall flag n) else .ok (some n)

/-- The form of printing that a flag chooses, unless another one was chosen. -/
def choose (g : Given) (flag : Flag) (form : ShapeForm) (other : Flag) (excluded : ShapeForm) :
    Except UsageFault Given :=
  if g.form = excluded then .error (.excluded flag other) else .ok { g with form }

/-- What is given with one more flag. -/
def use (g : Given) (s : Scope) (flag : Flag) (value : Text) : Except Stop Given :=
  let orRefuse (r : Except UsageFault Given) : Except Stop Given := r.mapError (.refused s)
  match flag with
  | .help => .error (.help s)
  | .version => .ok g
  | .format =>
    if (Target.ofName? value).isSome then
      .ok { g with options := { g.options with format := .string value } }
    else .error (.refused s (.unknownFormat value))
  | .name => .ok { g with options := { g.options with root := some value } }
  | .output => .ok { g with output := some value }
  | .allRequired => .ok { g with options := { g.options with useOptional := false } }
  | .json => orRefuse (g.choose .json .json .yaml .yaml)
  | .yaml => orRefuse (g.choose .yaml .yaml .json .json)
  | .sampleSize => orRefuse do
      let count ← positive flag value
      pure { g with sampling := { g.sampling with count } }
  | .maxDepth => orRefuse do
      let depth ← positive flag value
      pure { g with sampling := { g.sampling with depth } }

/-- What is given with one more thing asked for. -/
def step (s : Scope) (g : Given) : Event → Except Stop Given
  | .use flag value => g.use s flag (value.getD [])
  | .files paths => .ok { g with files := some paths }
  | .command _ _ => .ok g
  | .surplus t => .ok { g with surplus := g.surplus ++ [t] }
  | .fault f => .error (.refused s f)

end Given

/-- The words of the arguments of a scope. -/
def Scope.words (s : Scope) (arguments : List Text) : Except Stop (List Word) :=
  (Word.ofArguments s arguments).mapError (.refused s)

/-- The request that a command makes of what it is given. -/
def Command.request (c : Command) (g : Given) (sampling : Sampling) : Request :=
  match c with
  | .generate => .generate sampling g.options g.output
  | .schema => .schema sampling g.form
  | .formats => .formats

/-- The request that the arguments of a command make, and the arguments that are left over. -/
def Command.read (c : Command) (arguments : List Text) : Except Stop (Request × List Text) := do
  let s := Scope.command c
  let words ← s.words arguments
  let g ← (Event.ofWords s false words).foldlM (Given.step s) ({} : Given)
  match g.files, s.takesFiles with
  | none, true => .error (.refused s .noFiles)
  | files, _ => pure (c.request g { g.sampling with files := files.getD [] }, g.surplus)

/-- What is asked of the program itself. -/
structure Asked where
  version : Bool := false
  request : Option Request := none
  surplus : List Text := []
  /-- What a command left over. -/
  leftOver : List Text := []

namespace Asked

/-- What is asked with one more thing. -/
def step (a : Asked) : Event → Except Stop Asked
  | .use .help _ => .error (.help .program)
  | .use _ _ => .ok { a with version := true }
  | .files _ => .ok a
  | .command name arguments =>
    match Command.ofName? name with
    | none => .error (.refused .program (.unknownCommand name))
    | some c => do
      let (request, leftOver) ← c.read arguments
      pure { a with request := some request, leftOver }
  | .surplus t => .ok { a with surplus := a.surplus ++ [t] }
  | .fault f => .error (.refused .program f)

end Asked

/-- The request that the arguments of the program make. -/
def Request.ofArguments (arguments : List Text) : Except Stop Request := do
  let words ← Scope.program.words arguments
  let asked ← (Event.ofWords .program false words).foldlM Asked.step ({} : Asked)
  match asked.surplus ++ asked.leftOver with
  | [] => pure (if asked.version then .version else asked.request.getD .overview)
  | rest => .error (.refused .program (.unrecognized rest))

end TypeSketch
