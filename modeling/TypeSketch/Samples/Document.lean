import TypeSketch.Samples.Feed

/-!
# Samples of a JSON document

* `Document.feed`: the elements of a top-level array, one sample each. Any other document is one
  sample, and so is an empty array. The samples in front of a mistake are delivered.
-/

namespace TypeSketch.Document

/-- The bytes of a document as code points; all of its syntax is ASCII. -/
def ofBytes (bytes : List UInt8) : Text := bytes.map fun b => CodePoint.ofNat b.toNat

/-- Some samples and the mishap behind them. -/
def delivered (samples : List Value) (mishap : Option Json.Mishap) : Feed :=
  { samples, fault := mishap.map Fault.ofFile }

/-- The mishap that anything behind a document is. -/
def trailing (rest : Text) : Option Json.Mishap :=
  match Json.Dialect.skipBlanks .strict rest with
  | [] => none
  | rest => some (.problem .extraData rest)

/-- The samples of an array, given what follows its opening bracket. An empty array is itself a
sample, delivered once nothing is found behind it. -/
def arrayFeed (t : Text) : Feed :=
  match Json.Dialect.skipBlanks .strict t with
  | [] => delivered [] (some (.problem .expectedValue []))
  | c :: rest =>
    if c = ']' then
      match trailing rest with
      | none => delivered [.array []] none
      | mishap => delivered [] mishap
    else
      let (samples, mishap) := Json.elements .strict [] (c :: rest)
      delivered samples mishap

/-- The samples of a document. -/
def feed (bytes : List UInt8) : Feed :=
  match Json.Dialect.skipBlanks .strict (ofBytes bytes) with
  | [] => {}
  | c :: rest =>
    if c = '[' then arrayFeed rest
    else match Json.run .strict [] .before (c :: rest) with
      | .error mishap => delivered [] (some mishap)
      | .ok (v, rest) => delivered [v] (trailing rest)

end TypeSketch.Document
