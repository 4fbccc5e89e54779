import ClassNaming.Proofs.Keeps
import ClassNaming.Proofs.Run.World
import ClassNaming.Run.Program

/-!
# What a run prints

Lines are printed in a transaction only: one when the snapshot was taken, and one when it is clear
what becomes of the target.  Everything else, a sweep above all, leaves the output alone, however it
ends.

## Main Results

* `keeps_sweepAndTell` - a sweep prints nothing
* `printed_of_taken`, `printed_of_untaken` - a snapshot
* `printed_keepTarget`, `printed_restoreTarget` - the end of a transaction
-/

namespace ClassNaming

variable {α : Type} {w w' : World} {f : Failure} {renamer : Renamer} {path target snapshot : Path}

/-- The line that tells where the snapshot is. -/
def takenLine (snapshot : Path) : String := "Backup created: " ++ snapshot.text

/-- The line that tells that the target stays as it became. -/
def keptLine : String := "One or more annotations were remapped"

/-- The line that tells that the target is taken back. -/
def restoredLine : String := "No remapping occurred - restoring backup"

/-! ### Jobs that print nothing -/

/-- A job on the files prints nothing. -/
theorem keeps_onFiles {job : Job Id FileTree α} : Keeps World.printed (onFiles job) :=
  .within fun _ _ => rfl

/-- Neither does one on the progress. -/
theorem keeps_onProgress {job : Job Option Progress α} : Keeps World.printed (onProgress job) :=
  .within fun _ _ => rfl

/-- What is told is not printed. -/
theorem keeps_tellListing : Keeps World.printed tellListing :=
  .bind .get fun _ => keeps_onProgress

theorem keeps_sweepClass : Keeps World.printed (sweepClass renamer path) := by
  refine .bind keeps_onProgress fun _ => .bind keeps_onFiles fun content =>
    .bind (.during .await) fun verdict => ?_
  cases verdict with
  | renamed bytes => exact .bind keeps_onFiles fun _ => .bind keeps_onProgress fun _ =>
      keeps_onProgress
  | kept why =>
    dsimp only
    split
    · exact keeps_onProgress
    · exact .pure

theorem keeps_stageArchive {staging : Path} :
    Keeps World.printed (stageArchive renamer path staging) := by
  refine .bind keeps_onFiles fun content => .bind (.during .demand) fun archive =>
    .bind keeps_onFiles fun _ => .bind keeps_onProgress fun result =>
    .bind keeps_onFiles fun _ => ?_
  split
  · exact .throw
  · exact .pure

theorem keeps_sweepArchive : Keeps World.printed (sweepArchive renamer path) := by
  refine .bind keeps_onProgress fun _ => .bind ?_ fun changed => ?_
  · exact .tryCatch keeps_stageArchive fun f => .bind keeps_onFiles fun _ => .throw
  · split
    · exact .bind keeps_onFiles fun _ => .bind keeps_onProgress fun _ => keeps_onProgress
    · exact .bind keeps_onFiles fun _ => keeps_onProgress

/-- A sweep of a file prints nothing, of whatever kind it is. -/
theorem keeps_sweepFile : Keeps World.printed (sweepFile renamer path) := by
  unfold sweepFile
  split
  · exact keeps_sweepClass
  · exact keeps_sweepArchive
  · exact keeps_onProgress

/-- **A sweep prints nothing**, however it ends. -/
theorem keeps_sweep : Keeps World.printed (sweep renamer target) := by
  have lists : Keeps World.printed (filesUnder target) :=
    .bind keeps_tellListing fun _ => .bind keeps_onFiles fun _ => .pure
  exact .bind lists fun paths => .bind keeps_onProgress fun _ =>
    .bind (.forM fun _ _ => keeps_sweepFile) fun _ => .bind .get fun _ => .pure

/-- So a sweep prints nothing. -/
theorem keeps_sweepAndTell : Keeps World.printed (sweepAndTell renamer target) :=
  .bind keeps_sweep fun _ => .bind keeps_onProgress fun _ => .pure

/-- Neither does a copy. -/
theorem keeps_copyAndTell {action : Action} :
    Keeps World.printed (copyAndTell action target snapshot) := by
  refine .bind .get fun w => ?_
  dsimp only
  split
  · exact .bind keeps_tellListing fun _ => keeps_onFiles
  · exact keeps_onFiles

/-! ### Jobs that print a line -/

/-- When the snapshot is taken, the line that says so is printed. -/
theorem printed_of_taken (taken : Does (takeSnapshot target snapshot) w () w') :
    w'.printed = takenLine snapshot :: w.printed := by
  simp only [takeSnapshot, does_bind] at taken
  obtain ⟨_, u, removes, _, v, copies, said⟩ := taken
  rw [say, does_modify] at said
  rw [← said, ← keeps_onFiles.does removes, ← keeps_copyAndTell.does copies]
  rfl

/-- A snapshot that cannot be taken is not told of. -/
theorem printed_of_untaken (fails : Fails (takeSnapshot target snapshot) w f w') :
    w'.printed = w.printed := by
  simp only [takeSnapshot, fails_bind] at fails
  rcases fails with stopped | ⟨_, u, removes, stopped | ⟨_, v, -, stopped⟩⟩
  · exact keeps_onFiles.fails stopped
  · rw [keeps_copyAndTell.fails stopped, keeps_onFiles.does removes]
  · exact absurd stopped fails_modify

/-- A line that is printed first remains the only one if nothing else is printed. -/
theorem printed_of_say {line : String} {job : Job Option World α} {outcome : Except Failure α}
    (keeps : Keeps World.printed job)
    (ends : ending (say line >>= fun _ => job) w = some (outcome, w')) :
    w'.printed = line :: w.printed := by
  rw [Does.say.ending_bind] at ends
  exact keeps ends

variable {outcome : Except Failure Outcome}

/-- However keeping the target ends, its line was printed first. -/
theorem printed_keepTarget (ends : ending (keepTarget snapshot) w = some (outcome, w')) :
    w'.printed = keptLine :: w.printed :=
  printed_of_say (.bind keeps_onFiles fun _ => .pure) ends

/-- However taking it back ends, its line was printed first. -/
theorem printed_restoreTarget
    (ends : ending (restoreTarget target snapshot) w = some (outcome, w')) :
    w'.printed = restoredLine :: w.printed :=
  printed_of_say (.bind keeps_onFiles fun _ => .bind keeps_copyAndTell fun _ =>
    .bind keeps_onFiles fun _ => .bind keeps_onProgress fun _ => .pure) ends

end ClassNaming
