import TypeSketch.Json.Decode
import TypeSketch.Value.Display

/-!
# What can go wrong

Every operation that can fail does so with a `Fault`, which names the cause. The wording is in one
place.

* `Fault`: the causes.
* `Fault.message`: how each is reported.
-/

namespace TypeSketch

/-- Why console markup cannot be read. -/
inductive MarkupFault where
  /-- A closing tag without a name, with nothing open. -/
  | nothingToClose (offset : Nat)
  /-- A closing tag for something that is not open. -/
  | notOpen (tag : Text) (offset : Nat)
deriving DecidableEq

/-- Why a table of comma-separated values cannot be read. -/
inductive TableFault where
  /-- There is no header. -/
  | noColumns
  /-- A row has more cells than the rows before it. -/
  | longRow (expected line seen : Nat)
  /-- A quoted cell is not closed; the row is counted from zero. -/
  | openQuote (row : Nat)
deriving DecidableEq

/-- Why an operation fails. -/
inductive Fault where
  /-- There is no output format of that name. -/
  | unsupportedFormat (given : Value)
  /-- A value nests deeper than the limit. -/
  | tooDeep (limit : Option Int)
  /-- A text of so many bytes is larger than so many times 1024. -/
  | tooLarge (bytes : Nat) (limit : Int)
  /-- There is nothing to parse. -/
  | emptyInput
  /-- The text to infer from is not JSON. -/
  | malformedInput (complaint : Json.Complaint)
  /-- A line of a sample file is not JSON. -/
  | malformedLine (complaint : Json.Complaint)
  /-- An integer has more digits than are converted. -/
  | longInteger (digits : Nat)
  /-- There is no sample to infer from. -/
  | noSamples
  /-- There is no shape to merge. -/
  | nothingToMerge
  /-- The root type has no name. -/
  | namelessRoot
  /-- Fewer than one sample is asked for. -/
  | sampleCount (count : Int)
  /-- A shape record names a kind that does not exist. -/
  | unknownKind (given : Value)
  /-- A shape record names no kind. -/
  | missingKind
  /-- A shape record is not an object. -/
  | recordNotObject
  /-- The properties of a shape record are not an object. -/
  | propertiesNotObject
  /-- The required names of a shape record are no collection of labels. -/
  | requiredNotLabels
  /-- A value is not JSON. -/
  | foreignValue (typeName : Text)
  /-- A depth is compared with a limit that was not given. -/
  | noDepthLimit
  /-- A sample file does not exist. -/
  | missingFile (path : Text)
  /-- A file cannot be opened because it or its directory does not exist. -/
  | notFound (path : Text)
  /-- A file cannot be opened because it is a directory. -/
  | isDirectory (path : Text)
  /-- A file cannot be opened because its path leads through a file. -/
  | notDirectory (path : Text)
  /-- The bytes of a text file are not UTF-8. -/
  | undecodable (flaw : Utf8.Flaw)
  /-- A text with surrogates has no UTF-8 encoding. -/
  | unencodable (first : CodePoint) (offset count : Nat)
  /-- A streamed document is not complete JSON. -/
  | incompleteDocument
  /-- A table cannot be read. -/
  | table (fault : TableFault)
  /-- Markup in a printed text cannot be read. -/
  | markup (fault : MarkupFault)

/-- A number of bytes in units of 1024, to one place. -/
def kilobytes (bytes : Nat) : Text :=
  let tenths := roundHalfEven (bytes * 10) 1024
  Text.decimal (tenths / 10) ++ "." ++ Text.decimal (tenths % 10)

/-- The report that an input is too large. -/
def sizeMessage (bytes : Nat) (limit : Int) : Text :=
  ("Input size (" : Text) ++ kilobytes bytes ++ "KB) exceeds maximum allowed size (" ++
    Text.decimalInt limit ++ "KB)"

/-- The report on a fault of markup. -/
def MarkupFault.message : MarkupFault → Text
  | nothingToClose offset =>
    ("closing tag '[/]' at position " : Text) ++ Text.decimal offset ++ " has nothing to close"
  | notOpen tag offset =>
    ("closing tag '" : Text) ++ tag ++ "' at position " ++ Text.decimal offset ++
      " doesn't match any open tag"

/-- The report on a fault of a table. -/
def TableFault.message : TableFault → Text
  | noColumns => "No columns to parse from file"
  | longRow expected line seen =>
    ("Error tokenizing data. C error: Expected " : Text) ++ Text.decimal expected ++
      " fields in line " ++ Text.decimal line ++ ", saw " ++ Text.decimal seen ++ "\n"
  | openQuote row =>
    ("Error tokenizing data. C error: EOF inside string starting at row " : Text) ++
      Text.decimal row

namespace Fault

/-- The report that a value nests too deeply. -/
def depthMessage : Option Int → Text
  | none => "JSON value is too deeply nested"
  | some limit =>
    ("JSON value is too deeply nested (limit is " : Text) ++ Text.decimalInt limit ++ " levels)"

/-- How a fault is reported. -/
def message : Fault → Text
  | unsupportedFormat given => ("Unsupported output format: " : Text) ++ given.display
  | tooDeep limit => depthMessage limit
  | tooLarge bytes limit => sizeMessage bytes limit
  | emptyInput => "Input is empty"
  | malformedInput complaint => complaint.message
  | malformedLine complaint => complaint.message
  | longInteger digits =>
    ("Exceeds the limit (" : Text) ++ Text.decimal Json.Dialect.maxDigits ++
      " digits) for integer string conversion: value has " ++ Text.decimal digits ++
      " digits; use sys.set_int_max_str_digits() to increase the limit"
  | noSamples => "At least one sample is required to infer a schema"
  | nothingToMerge => "merge_schemas() requires at least one schema"
  | namelessRoot => "root_type_name must be a non-empty identifier"
  | sampleCount count => ("sample_size must be at least 1, got " : Text) ++ Text.decimalInt count
  | unknownKind given => given.display ++ " is not a valid SchemaKind"
  | missingKind => "'type'"
  | recordNotObject => "a schema must be an object"
  | propertiesNotObject => "properties must be an object"
  | requiredNotLabels => "required must be a collection of names"
  | foreignValue typeName => ("Value of type " : Text) ++ typeName ++ " is not a JSON value"
  | noDepthLimit => "no depth limit to compare with"
  | missingFile path => ("File not found: " : Text) ++ path
  | notFound path => ("[Errno 2] No such file or directory: " : Text) ++ path.quoted
  | isDirectory path => ("[Errno 21] Is a directory: " : Text) ++ path.quoted
  | notDirectory path => ("[Errno 20] Not a directory: " : Text) ++ path.quoted
  | undecodable flaw => flaw.message
  | unencodable first offset count =>
    let place : Text :=
      if count = 1 then
        ("character '" : Text) ++ CodePoint.quotedIn '\'' first ++ "' in position " ++
          Text.decimal offset
      else
        ("characters in position " : Text) ++ Text.decimal offset ++ "-" ++
          Text.decimal (offset + count - 1)
    ("'utf-8' codec can't encode " : Text) ++ place ++ ": surrogates not allowed"
  | incompleteDocument => "incomplete or invalid JSON document"
  | table fault => fault.message
  | markup fault => fault.message

/-- The fault of a sample file that reading JSON from it ran into. -/
def ofFile : Json.Mishap → Fault
  | .badBytes flaw => undecodable flaw
  | _ => incompleteDocument

end Fault

end TypeSketch
