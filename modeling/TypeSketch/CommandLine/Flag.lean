import TypeSketch.Target

/-!
# Flags and commands

* `Flag`: what can be said in front of or among the arguments.
* `Command`: what can be done.
* `Scope.flags`: the flags of the program itself and of each command.
* `Scope.usage`, `Scope.help`: what the program prints about them.
-/

namespace TypeSketch

/-- A flag of the command line. -/
inductive Flag where
  | help
  | version
  | format
  | name
  | output
  | allRequired
  | json
  | yaml
  | sampleSize
  | maxDepth
deriving DecidableEq

namespace Flag

/-- The spellings of a flag. -/
def spellings : Flag → List Text
  | help => ["-h", "--help"]
  | version => ["--version"]
  | format => ["-f", "--format"]
  | name => ["-n", "--name"]
  | output => ["-o", "--output"]
  | allRequired => ["--no-optional"]
  | json => ["--json"]
  | yaml => ["--yaml"]
  | sampleSize => ["--sample-size"]
  | maxDepth => ["--max-depth"]

/-- Whether a flag has a value. -/
def takesValue : Flag → Bool
  | format | name | output | sampleSize | maxDepth => true
  | help | version | allRequired | json | yaml => false

/-- The name of a flag in a complaint. -/
def label (f : Flag) : Text := Text.join "/" f.spellings

end Flag

/-- A command of the program. -/
inductive Command where
  | generate
  | schema
  | formats
deriving DecidableEq

namespace Command

/-- All commands, in the order in which they are listed. -/
def all : List Command := [generate, schema, formats]

/-- The name by which a command is called. -/
def name : Command → Text
  | generate => "generate"
  | schema => "schema"
  | formats => "formats"

/-- The command of a name. -/
def ofName? (name : Text) : Option Command := all.find? fun c => c.name = name

end Command

/-- Where flags are read: behind the program's name, or behind that of a command. -/
inductive Scope where
  | program
  | command (c : Command)
deriving DecidableEq

namespace Scope

/-- The flags of a scope. -/
def flags : Scope → List Flag
  | program => [.help, .version]
  | command .generate =>
    [.help, .format, .name, .output, .allRequired, .sampleSize, .maxDepth]
  | command .schema => [.help, .json, .yaml, .sampleSize, .maxDepth]
  | command .formats => [.help]

/-- All spellings of the flags of a scope, each with its flag. -/
def spellings (s : Scope) : List (Text × Flag) :=
  s.flags.flatMap fun f => f.spellings.map fun t => (t, f)

/-- The flag of a spelling. -/
def flagOf? (s : Scope) (spelling : Text) : Option Flag :=
  (s.spellings.find? fun e => e.1 = spelling).map (·.2)

/-- Whether a scope takes files. -/
def takesFiles : Scope → Bool
  | command .generate | command .schema => true
  | program | command .formats => false

/-- What a call of a scope begins with. -/
def title : Scope → Text
  | program => "jsontypegen"
  | command c => ("jsontypegen " : Text) ++ c.name

/-- Some names to choose from. -/
def choices (names : List Text) : Text := ("\x7b" : Text) ++ Text.join "," names ++ "\x7d"

/-- The commands to choose from. -/
def commandChoices : Text := choices (Command.all.map Command.name)

/-- The output formats to choose from. -/
def formatChoices : Text := choices (Target.all.map Target.name)

/-- The lines on how a scope is called. -/
def usageLines : Scope → List Text
  | program => [("[-h] [--version] " : Text) ++ commandChoices ++ " ..."]
  | command .generate =>
    ["[-h]",
     ("[-f " : Text) ++ formatChoices ++ "]",
     "[-n NAME] [-o OUTPUT] [--no-optional]",
     "[--sample-size SAMPLE_SIZE]",
     "[--max-depth MAX_DEPTH]",
     "files [files ...]"]
  | command .schema =>
    ["[-h] [--json | --yaml] [--sample-size SAMPLE_SIZE]",
     "[--max-depth MAX_DEPTH]",
     "files [files ...]"]
  | command .formats => ["[-h]"]

/-- How a scope is called, one line below the other. -/
def usage (s : Scope) : Text :=
  let start := ("usage: " : Text) ++ s.title ++ " "
  start ++ Text.join ("\n" ++ Text.spaces start.length) s.usageLines ++ "\n"

/-- The lines on the flags for sampling. -/
def samplingHelp : List Text :=
  ["  --sample-size SAMPLE_SIZE",
   "                        Number of samples to read (default: 1000)",
   "  --max-depth MAX_DEPTH",
   "                        Maximum nesting depth accepted (default: 100)"]

/-- The lines on files and on asking for help. -/
def filesHelp : List Text :=
  ["",
   "positional arguments:",
   "  files                 JSON, JSON Lines, CSV or Parquet sample files",
   "",
   "options:",
   "  -h, --help            show this help message and exit"]

/-- The lines on the flags of a scope. -/
def helpLines : Scope → List Text
  | program =>
    ["",
     "Generate TypeScript, JSDoc and Python type definitions from sample JSON",
     "",
     "positional arguments:",
     ("  " : Text) ++ commandChoices,
     "                        Available commands",
     "    generate            Generate type definitions from sample files",
     "    schema              Infer and print the schema of sample files",
     "    formats             List supported output formats",
     "",
     "options:",
     "  -h, --help            show this help message and exit",
     "  --version             Show version and exit"]
  | command .generate =>
    filesHelp ++
      ([("  -f " : Text) ++ formatChoices ++ ", --format " ++ formatChoices,
       "                        Output format (default: typescript)",
       "  -n NAME, --name NAME  Name of the root type (default: Root)",
       "  -o OUTPUT, --output OUTPUT",
       "                        Write the definitions to this file instead of printing",
       "                        them",
       "  --no-optional         Emit every field as required, even when missing from",
       "                        some samples"] : List Text) ++
      samplingHelp
  | command .schema =>
    filesHelp ++
      (["  --json                Print the schema as JSON",
       "  --yaml                Print the schema as YAML"] : List Text) ++
      samplingHelp
  | command .formats =>
    ["",
     "options:",
     "  -h, --help  show this help message and exit"]

/-- All that is printed when help is asked for. -/
def help (s : Scope) : Text := s.usage ++ s.helpLines.flatMap fun line => line ++ ("\n" : Text)

end Scope

end TypeSketch
