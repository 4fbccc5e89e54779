import ClassNaming.Files.Copy
import ClassNaming.Log.Progress

/-!
# The world of a run

A run works on the files, leaves events and counters, and prints lines.  Its relative paths start
from the working directory.  What it does with the files alone always comes to an end; the run as a
whole need not.

## Main Definitions

* `World` - all that a run can change
* `onFiles`, `onProgress` - jobs on a part of the world
* `say` - a line of output
* `tellListing` - the event that a listing begins
-/

namespace ClassNaming

/-- All that a run can change, and the working directory.  The lines that were printed are held with
the latest first. -/
structure World where
  directory : Path
  files : FileTree
  progress : Progress
  printed : List String

/-- A world with the given files, in which nothing has happened so far. -/
def World.ofFiles (directory : Path) (files : FileTree) : World := ⟨directory, files, .start, []⟩

/-- The printed lines in their order. -/
def World.output (w : World) : List String := w.printed.reverse

/-- The events in their order. -/
def World.events (w : World) : List Event := w.progress.events.reverse

variable {α : Type}

/-- A job on the files. -/
def onFiles (job : Job Id FileTree α) : Job Option World α :=
  job.sure.within World.files fun files w => { w with files }

/-- A job on counters and events. -/
def onProgress (job : Job Option Progress α) : Job Option World α :=
  job.within World.progress fun progress w => { w with progress }

/-- Prints a line. -/
def say (line : String) : Job Option World Unit :=
  modify fun w => { w with printed := line :: w.printed }

/-- Tells that a listing begins. -/
def tellListing : Job Option World Unit := do
  let directory := (← get).directory
  onProgress (tell (.listed directory.text))

end ClassNaming
