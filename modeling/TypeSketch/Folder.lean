import TypeSketch.Fault

/-!
# Files

Sample files and written definitions lie in a folder and its subfolders.

* `FilePath.normalize`: a path without empty and `.` components.
* `FilePath.suffix`: the ending of a file name.
* `Folder.find`: what a path leads to.
* `Folder.write`: the folder after a file was written.
-/

namespace TypeSketch

namespace FilePath

/-- The components of a path that say something. -/
def parts (path : Text) : List Text :=
  (path.splitOn '/').filter fun p => !p.isEmpty && p ≠ Text.ofString "."

/-- How a path begins when it is absolute: with one slash, or with exactly two. -/
def rootOf (path : Text) : Text :=
  let slashes := path.takeWhile (CodePoint.is '/')
  if slashes.length = 2 then slashes else slashes.take 1

/-- A path without empty and `.` components; nothing else is left of the path to the folder itself
than a dot. -/
def normalize (path : Text) : Text :=
  let whole := rootOf path ++ Text.join "/" (parts path)
  if whole.isEmpty then "." else whole

/-- The ending of the last component from its last dot on, if something stands on either side of it.
-/
def suffix (path : Text) : Text :=
  let name := (parts path).getLastD []
  let ending := (name.reverse.takeWhile fun c : CodePoint => c ≠ '.').reverse
  let stem := name.length - ending.length - 1
  if ending.isEmpty || ending.length = name.length || stem = 0 then [] else '.' :: ending

end FilePath

/-- Files and subfolders, by their paths in normal form. -/
structure Folder where
  files : Entries (List UInt8) := []
  /-- The paths of the subfolders. -/
  subfolders : List Text := []

namespace Folder

/-- What a path leads to. -/
inductive Found where
  | file (path : Text) (bytes : List UInt8)
  | folder
  /-- Nothing is there, but a file of that path could be made. -/
  | absent (path : Text)
  /-- The path leads through a file. -/
  | blocked
  | missing

/-- The components of the folder around a folder. Nothing is around the root, whose only component
is empty. -/
def parent (here : List Text) : List Text :=
  match here.getLast? with
  | none => [".."]
  | some last =>
    if last = Text.ofString ".." then here ++ [last]
    else if last.isEmpty then here
    else here.dropLast

/-- What some components lead to from a folder, given by its components. -/
def walk (f : Folder) (here : List Text) : List Text → Found
  | [] => .folder
  | part :: rest =>
    if part = Text.ofString ".." then walk f (parent here) rest
    else
      let path := Text.join "/" (here ++ [part])
      match Entries.get? f.files path with
      | some bytes => if rest.isEmpty then .file path bytes else .blocked
      | none =>
        if f.subfolders.contains path then walk f (here ++ [part]) rest
        else if rest.isEmpty then .absent path
        else .missing

/-- The components of the folder where a path starts. -/
def startOf (path : Text) : List Text := if path.startsWith "/" then [[]] else []

/-- What a path leads to. -/
def find (f : Folder) (path : Text) : Found :=
  if path.isEmpty then .missing else f.walk (startOf path) (FilePath.parts path)

/-- The places on the way along some components, given by their components. -/
def placesFrom (here : List Text) : List Text → List (List Text)
  | [] => []
  | part :: rest =>
    let next := if part = Text.ofString ".." then parent here else here ++ [part]
    next :: placesFrom next rest

/-- The paths of the places along which a path leads, itself included. -/
def places (path : Text) : List Text :=
  (placesFrom (startOf path) (FilePath.parts path)).map (Text.join "/")

/-- Whether a path leads to a file or a folder. -/
def exists? (f : Folder) (path : Text) : Bool :=
  match f.find path with
  | .file .. | .folder => true
  | .absent _ | .blocked | .missing => false

/-- The bytes of a file that is opened for reading. -/
def read (f : Folder) (path : Text) : Except Fault (List UInt8) :=
  match f.find path with
  | .file _ bytes => .ok bytes
  | .folder => .error (.isDirectory path)
  | .blocked => .error (.notDirectory path)
  | .absent _ | .missing => .error (.notFound path)

/-- The folder after a file was written. -/
def write (f : Folder) (path : Text) (bytes : List UInt8) : Except Fault Folder :=
  match f.find path with
  | .file at' _ | .absent at' =>
    if path.endsWith "/" then .error (.isDirectory path)
    else .ok { f with files := Entries.put f.files at' bytes }
  | .folder => .error (.isDirectory path)
  | .blocked => .error (.notDirectory path)
  | .missing => .error (.notFound path)

/-- The subfolders on the way to a path: all that its components but the last lead through. -/
def above (path : Text) : List Text :=
  let parts := FilePath.parts path
  (List.range (parts.length - 1)).map fun i => Text.join "/" (parts.take (i + 1))

/-- The folder with a file put into it, the subfolders on the way made. -/
def put (f : Folder) (path : Text) (bytes : List UInt8) : Folder :=
  { files := Entries.put f.files (FilePath.normalize path) bytes
    subfolders := f.subfolders ++ above path }

/-- The folder without a file. -/
def erase (f : Folder) (path : Text) : Folder :=
  { f with files := f.files.filter fun e => e.1 ≠ FilePath.normalize path }

end Folder

end TypeSketch
