import TypeSketch.Console
import TypeSketch.Folder

/-!
# Workspaces

* `Workspace`: the folder in which files lie and the text that a console shows.
* `Workspace.say`: the workspace after a message was printed. A message whose markup cannot be read
  is not printed at all.
-/

namespace TypeSketch

/-- A folder and what was printed. -/
structure Workspace where
  folder : Folder := {}
  console : Text := []

namespace Workspace

/-- The workspace after some lines were printed. -/
def print (w : Workspace) (lines : Text) : Workspace := { w with console := w.console ++ lines }

/-- The workspace after a message with markup was printed. -/
def say (w : Workspace) (message : Text) : Except Fault Workspace :=
  (Console.markedUp message).map w.print

theorem say_folder {w w' : Workspace} {message : Text} (h : w.say message = .ok w') :
    w'.folder = w.folder := by
  unfold say at h
  cases hm : Console.markedUp message with
  | error f => rw [hm] at h; cases h
  | ok lines => rw [hm] at h; cases h; rfl

end Workspace

end TypeSketch
