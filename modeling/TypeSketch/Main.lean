import TypeSketch.CommandLine

/-!
# The command line

* `main`: reads the files that the arguments name, runs the program, writes the files that it
  changed and prints what it shows.
-/

namespace TypeSketch

/-- The folder with what lies on the disk at a place. -/
def Folder.load (folder : Folder) (place : Text) : IO Folder := do
  try
    let bytes ← IO.FS.readBinFile place.toString
    pure { folder with files := Entries.put folder.files place bytes.toList }
  catch
    | .inappropriateType .. => pure { folder with subfolders := place :: folder.subfolders }
    | _ => pure folder

/-- The folder with all that some arguments name. -/
def Folder.ofArguments (arguments : List Text) : IO Folder :=
  match Request.ofArguments arguments with
  | .ok request => (request.paths.flatMap Folder.places).foldlM Folder.load {}
  | .error _ => pure {}

/-- Writes the files that differ between two folders. -/
def Folder.save (before after : Folder) : IO Unit :=
  after.files.forM fun (place, bytes) =>
    if Entries.get? before.files place = some bytes then pure ()
    else IO.FS.writeBinFile place.toString ⟨bytes.toArray⟩

end TypeSketch

open TypeSketch in
/-- Runs the program on the files of the disk. -/
def main (args : List String) : IO UInt32 := do
  let arguments := args.map Text.ofString
  let folder ← Folder.ofArguments arguments
  match CommandLine.run { folder } arguments with
  | .error fault =>
    IO.eprintln fault.message.toString
    pure 1
  | .ok report =>
    folder.save report.workspace.folder
    IO.print (report.help ++ report.workspace.console).toString
    IO.eprint report.complaint.toString
    pure (UInt32.ofNat report.code)
