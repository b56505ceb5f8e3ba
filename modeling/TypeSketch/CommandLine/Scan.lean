import TypeSketch.CommandLine.Flag
import TypeSketch.Text.Digit
import TypeSketch.Text.Quoted

/-!
# Scanning arguments

An argument with a dash in front is a flag, in full or as much of it as tells it from the others.
Its value is attached to it or is the next argument. Short flags may share a dash. Behind `--` no
argument is a flag.

* `Word.ofArguments`: the arguments told apart.
* `Event.ofWords`: what they ask for, one thing after another, up to the first that makes no sense.
* `UsageFault.message`: how that is reported.
-/

namespace TypeSketch

/-- Why arguments make no sense. -/
inductive UsageFault where
  /-- A flag is cut short and may be any of several. -/
  | ambiguous (given : Text) (candidates : List Text)
  /-- A flag lacks its value. -/
  | missingValue (flag : Flag)
  /-- A flag without a value is given one. -/
  | surplusValue (flag : Flag) (value : Text)
  /-- A flag is given together with one that excludes it. -/
  | excluded (flag other : Flag)
  | unknownFormat (given : Text)
  | unknownCommand (given : Text)
  | notInteger (flag : Flag) (given : Text)
  | tooSmall (flag : Flag) (n : Int)
  | noFiles
  /-- Some arguments are left over. -/
  | unrecognized (arguments : List Text)

namespace UsageFault

/-- A complaint about an argument. -/
def about (argument complaint : Text) : Text :=
  ("argument " : Text) ++ argument ++ ": " ++ complaint

/-- The complaint that something is not among some choices. -/
def invalidChoice (given : Text) (choices : List Text) : Text :=
  ("invalid choice: " : Text) ++ given.quoted ++ " (choose from " ++
    Text.join ", " (choices.map Text.quoted) ++ ")"

/-- How a fault is reported. -/
def message : UsageFault → Text
  | ambiguous given candidates =>
    ("ambiguous option: " : Text) ++ given ++ " could match " ++ Text.join ", " candidates
  | missingValue flag => about flag.label "expected one argument"
  | surplusValue flag value =>
    about flag.label (("ignored explicit argument " : Text) ++ value.quoted)
  | excluded flag other => about flag.label (("not allowed with argument " : Text) ++ other.label)
  | unknownFormat given =>
    about Flag.format.label (invalidChoice given (Target.all.map Target.name))
  | unknownCommand given => about "command" (invalidChoice given (Command.all.map Command.name))
  | notInteger flag given =>
    about flag.label (("invalid _positive_int value: " : Text) ++ given.quoted)
  | tooSmall flag n => about flag.label (("must be at least 1, got " : Text) ++ Text.decimalInt n)
  | noFiles => "the following arguments are required: files"
  | unrecognized arguments => ("unrecognized arguments: " : Text) ++ Text.join " " arguments

end UsageFault

/-- What is attached to a flag. -/
inductive Attached where
  | nothing
  /-- What follows a short flag without anything between. -/
  | joined (t : Text)
  /-- What follows an equals sign. -/
  | assigned (t : Text)

/-- A flag as it is given. -/
structure GivenFlag where
  flag : Flag
  /-- Whether it has one dash. -/
  isShort : Bool
  attached : Attached

/-- An argument. -/
inductive Word where
  | operand (t : Text)
  /-- The first `--`. -/
  | separator
  /-- Something that looks like a flag, and the flag of its scope that it is, if it is one. -/
  | flag (t : Text) (given : Option GivenFlag)

namespace Word

/-- The text of an argument. -/
def text : Word → Text
  | operand t => t
  | separator => "--"
  | flag t _ => t

/-- Whether an argument does not look like a flag. -/
def isPlain : Word → Bool
  | operand _ | separator => true
  | flag .. => false

/-- Whether an argument is an operand. -/
def isOperand : Word → Bool
  | operand _ => true
  | separator | flag .. => false

/-- The part of a text in front of its first equals sign, and the part behind it. -/
def cutAssignment (t : Text) : Text × Attached :=
  match t.dropWhile fun c : CodePoint => c ≠ '=' with
  | [] => (t, .nothing)
  | _ :: value => (t.takeWhile fun c : CodePoint => c ≠ '=', .assigned value)

/-- Whether a spelling has one dash. -/
def isShortSpelling (t : Text) : Bool := t[1]? ≠ some (CodePoint.ofChar '-')

/-- The flags of a scope that a text may be short for, with their spellings. -/
def candidates (s : Scope) (t : Text) : List (Text × GivenFlag) :=
  if isShortSpelling t then
    s.spellings.filterMap fun e =>
      if e.1 = t.take 2 then some (e.1, ⟨e.2, true, .joined (t.drop 2)⟩)
      else if e.1.startsWith t then some (e.1, ⟨e.2, isShortSpelling e.1, .nothing⟩)
      else none
  else
    let (start, attached) := cutAssignment t
    s.spellings.filterMap fun e =>
      if e.1.startsWith start then some (e.1, ⟨e.2, isShortSpelling e.1, attached⟩) else none

/-- A decimal digit of any script. -/
def isAnyDigit (c : CodePoint) : Bool := c.decimal?.isSome

/-- Whether a text is a minus sign and a decimal number, with or without a point. A line feed may
follow it. -/
def isNegativeNumber (t : Text) : Bool :=
  match t with
  | [] => false
  | c :: rest =>
    let body := if rest.getLast? = some (CodePoint.ofChar '\n') then rest.dropLast else rest
    let decimals := body.dropWhile isAnyDigit
    c = '-' &&
      match decimals with
      | [] => !body.isEmpty
      | point :: decimals => point = '.' && !decimals.isEmpty && decimals.all isAnyDigit

/-- An argument in front of any separator. What has a dash in front is a flag, unless it is the dash
alone, a negative number, or an unknown flag with a blank in it. -/
def ofText (s : Scope) (t : Text) : Except UsageFault Word :=
  if !t.startsWith "-" || t.length = 1 then .ok (operand t)
  else match s.flagOf? t with
    | some f => .ok (flag t (some ⟨f, isShortSpelling t, .nothing⟩))
    | none =>
      let (spelling, attached) := cutAssignment t
      match s.flagOf? spelling, attached with
      | some f, .assigned value =>
        .ok (flag t (some ⟨f, isShortSpelling spelling, .assigned value⟩))
      | _, _ =>
        match candidates s t with
        | [] =>
          if isNegativeNumber t || t.contains " " then .ok (operand t) else .ok (flag t none)
        | [(_, given)] => .ok (flag t (some given))
        | several => .error (.ambiguous t (several.map (·.1)))

/-- The arguments of a scope told apart. -/
def ofArguments (s : Scope) : List Text → Except UsageFault (List Word)
  | [] => .ok []
  | t :: rest =>
    if t = Text.ofString "--" then .ok (separator :: rest.map operand)
    else do
      let w ← ofText s t
      let ws ← ofArguments s rest
      pure (w :: ws)

end Word

/-- What arguments ask for. -/
inductive Event where
  | use (flag : Flag) (value : Option Text)
  | files (paths : List Text)
  | command (name : Text) (arguments : List Text)
  /-- An argument that nothing takes. -/
  | surplus (t : Text)
  | fault (f : UsageFault)

namespace Event

/-- What a flag asks for, and whether it takes the next argument. -/
structure Step where
  events : List Event
  takesNext : Bool := false

/-- What a flag with nothing attached asks for. -/
def plain (flag : Flag) (next : Option Text) : Except UsageFault Step :=
  if flag.takesValue then
    match next with
    | some value => .ok { events := [.use flag (some value)], takesNext := true }
    | none => .error (.missingValue flag)
  else .ok { events := [.use flag none] }

/-- What a flag with a text attached asks for. A short flag without a value shares its dash with the
flags that its text begins with. -/
def attached (s : Scope) (next : Option Text) (flag : Flag) (isShort isAssigned : Bool)
    (value : Text) : Except UsageFault Step :=
  if flag.takesValue then .ok { events := [.use flag (some value)] }
  else if !isShort then .error (.surplusValue flag value)
  else match value with
    | [] => .error (.surplusValue flag value)
    | c :: rest =>
      if isAssigned || c = '-' then .error (.surplusValue flag value)
      else match s.flagOf? ['-', c] with
        | none => .ok { events := [.surplus ('-' :: value), .use flag none] }
        | some other => do
          let step ← match rest with
            | [] => plain other next
            | d :: more =>
              if d = '=' then attached s next other true true more
              else attached s next other true false (d :: more)
          pure { step with events := .use flag none :: step.events }

/-- What a flag asks for. -/
def ofFlag (s : Scope) (next : Option Text) (given : GivenFlag) : Except UsageFault Step :=
  match given.attached with
  | .nothing => plain given.flag next
  | .joined value => attached s next given.flag given.isShort false value
  | .assigned value => attached s next given.flag given.isShort true value

/-- What arguments between flags ask for, when files were given already or not, and the arguments
behind them are known. -/
def ofPlain (s : Scope) (filesGiven : Bool) (words : List Word) : List Event :=
  if s.takesFiles && !filesGiven && words.any Word.isOperand then
    [.files ((words.filter Word.isOperand).map Word.text)]
  else words.map fun w => .surplus w.text

/-- The text of an operand at the front. -/
def nextOperand? : List Word → Option Text
  | .operand t :: _ => some t
  | _ => none

theorem length_dropWhile_le {α : Type} (p : α → Bool) (l : List α) :
    (l.dropWhile p).length ≤ l.length := (List.dropWhile_sublist p).length_le

/-- What the arguments of a scope ask for. The program itself hands everything from the first
operand on to a command. -/
def ofWords (s : Scope) (filesGiven : Bool) : List Word → List Event
  | [] => []
  | .flag t none :: rest => .surplus t :: ofWords s filesGiven rest
  | .flag _ (some given) :: rest =>
    match ofFlag s (nextOperand? rest) given with
    | .error f => [.fault f]
    | .ok step => step.events ++ ofWords s filesGiven (if step.takesNext then rest.tail else rest)
  | w :: rest =>
    -- Files are taken from one run of plain arguments only; later runs are surplus.
    let run := w :: rest.takeWhile Word.isPlain
    if s = .program && run.any Word.isOperand then [.command w.text (rest.map Word.text)]
    else
      ofPlain s filesGiven run ++
        ofWords s (filesGiven || run.any Word.isOperand) (rest.dropWhile Word.isPlain)
termination_by words => words.length
decreasing_by
  · simp
  · simp only [List.length_cons]
    split
    · rw [List.length_tail]; omega
    · omega
  · have := length_dropWhile_le Word.isPlain rest
    simp only [List.length_cons]
    omega

end Event

end TypeSketch
