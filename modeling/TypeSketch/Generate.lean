import TypeSketch.Json.Decode
import TypeSketch.Shape.Infer
import TypeSketch.Target
import TypeSketch.Text.Blank

/-!
# Generating type definitions

* `Options`: what can be chosen. The root type needs a name.
* `generate`: the type definitions of a shape.
* `generateFromValue`, `generateFromText`: those of a sample and of the text of one.
* `parseSafely`: the value of a text, or the report why there is none.
-/

namespace TypeSketch

/-- The default limits. -/
structure Limits where
  /-- How deep a sample may nest. -/
  depth : Option Int := some 100
  /-- How large a text may be, in units of 1024 bytes; nothing for any size. -/
  kilobytes : Option Int := some 1024
  /-- How many samples are read from files; nothing for all. -/
  samples : Option Int := some 1000

/-- The settings of one generation, as they are given. -/
structure Options where
  /-- The name of the output format; anything else is refused when it is looked up. -/
  format : Value := .string "typescript"
  /-- The name of the root type. -/
  root : Option Text := some "Root"
  /-- Whether fields that are not required are declared as such. -/
  useOptional : Bool := true

/-- Settings with a name for the root type. -/
structure Settings where
  format : Value
  root : Text
  useOptional : Bool
  root_ne_nil : root ≠ []

namespace Options

/-- The settings, if the root type has a name. -/
def settle (o : Options) : Except Fault Settings :=
  match o.root with
  | some (c :: rest) => .ok ⟨o.format, c :: rest, o.useOptional, List.cons_ne_nil c rest⟩
  | _ => .error .namelessRoot

end Options

/-- The format that a value names. -/
def Target.ofValue (given : Value) : Except Fault Target :=
  match given with
  | .string name =>
    match Target.ofName? name with
    | some t => .ok t
    | none => .error (.unsupportedFormat given)
  | _ => .error (.unsupportedFormat given)

/-- Generated type definitions. -/
structure Generated where
  /-- The name of the root type. -/
  name : Text
  content : Text
  /-- The modules that the content imports. -/
  dependencies : List Text

/-- The type definitions of a shape. -/
def generate (s : Shape) (settings : Settings) : Except Fault Generated := do
  let target ← Target.ofValue settings.format
  pure
    { name := settings.root
      content := target.content (s.declarations settings.useOptional settings.root)
      dependencies := target.dependencies }

/-- The type definitions of a sample. -/
def generateFromValue (v : Value) (settings : Settings) (depth : Option Int) :
    Except Fault Generated := do
  generate (← Shape.infer depth v) settings

/-- A run of surrogates at the front, with the offset of its first code point. -/
def surrogatesFrom (offset : Nat) : Text → Option (CodePoint × Nat × Nat)
  | [] => none
  | c :: rest =>
    if c.isSurrogate then some (c, offset, 1 + (rest.takeWhile CodePoint.isSurrogate).length)
    else surrogatesFrom (offset + 1) rest

/-- The number of bytes of a text, which must be free of surrogates. -/
def byteSize (t : Text) : Except Fault Nat :=
  match surrogatesFrom 0 t with
  | some (c, offset, count) => .error (.unencodable c offset count)
  | none => .ok t.utf8Size

/-- The number of bytes of a text if it is more than `limit` times 1024. -/
def oversize? (limit : Option Int) (t : Text) : Except Fault (Option (Nat × Int)) :=
  match limit with
  | none => .ok none
  | some most => do
    let bytes ← byteSize t
    pure (if most * 1024 < bytes then some (bytes, most) else none)

/-- The type definitions of the text of a sample. The format is looked up before anything else is
done. -/
def generateFromText (t : Text) (settings : Settings) (depth kilobytes : Option Int) :
    Except Fault Generated := do
  let _ ← Target.ofValue settings.format
  if t.isBlank then .error .emptyInput
  match ← oversize? kilobytes t with
  | some (bytes, most) => .error (.tooLarge bytes most)
  | none =>
    match Json.decode .lenient t with
    | .ok v => generateFromValue v settings depth
    | .error m =>
      match m.complaint? t, m with
      | some complaint, _ => .error (.malformedInput complaint)
      | none, .longInteger digits => .error (.longInteger digits)
      | none, _ => .error (.tooDeep depth)

/-- The value of a text, or the report why it has none. Integers with too many digits are no
matter of the text's syntax and stop the caller as well. -/
def parseSafely (t : Text) (kilobytes : Option Int) : Except Fault (Except Text Value) := do
  if t.isBlank then pure (.error Fault.emptyInput.message)
  else
    match ← oversize? kilobytes t with
    | some (bytes, most) => pure (.error (sizeMessage bytes most))
    | none =>
      match Json.decode .lenient t with
      | .ok v => pure (.ok v)
      | .error m =>
        match m.complaint? t, m with
        | some complaint, _ => pure (.error complaint.message)
        | none, .longInteger digits => .error (.longInteger digits)
        | none, _ => pure (.error (Fault.depthMessage none))

end TypeSketch
