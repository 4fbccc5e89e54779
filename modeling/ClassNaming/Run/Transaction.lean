import ClassNaming.Run.Sibling
import ClassNaming.Run.World

/-!
# Transactions

A transaction takes a snapshot of its target, and then has the target changed.  If that made a
difference, the target stays as it became; if it made none, the target is taken back from the
snapshot.  In both cases the snapshot is removed at the end.  If the change fails, the snapshot
stays for whoever wants to recover the target.

Whatever lay where the snapshot is to be made is removed first.

## Main Definitions

* `Outcome` - how a transaction ended
* `transact` - runs a transaction

## Design Notes

Copying is an affair of the files alone.  That a folder is listed for it is told beforehand, so
whether it will be must be clear by then.
-/

namespace ClassNaming

/-- How a transaction ended. -/
inductive Outcome where
  /-- The change made a difference, and the target stays as it became. -/
  | kept
  /-- Nothing changed, and the target was taken back from the snapshot. -/
  | restored
  deriving Repr, DecidableEq

/-- Whether copying begins with a listing: there is a folder to copy, and nothing in its way. -/
def FileTree.listsToCopy (t : FileTree) (source destination : Path) : Bool :=
  !(t.find .entry destination).isOk
    && (match t.find .entry source with
      | .ok (_, .folder) => true
      | _ => false)

/-- Copies whatever lies at a path, as a part of an action. -/
def copyAndTell (action : Action) (source destination : Path) : Job Option World Unit := do
  if (← get).files.listsToCopy source destination then tellListing
  onFiles ((copyTree source destination).during action)

/-- Keeps what became of the target. -/
def keepTarget (snapshot : Path) : Job Option World Outcome := do
  say "One or more annotations were remapped"
  onFiles (removeTree snapshot)
  return .kept

/-- Takes the target back from its snapshot. -/
def restoreTarget (target snapshot : Path) : Job Option World Outcome := do
  say "No remapping occurred - restoring backup"
  onFiles (removeTree target)
  copyAndTell (.restoreSnapshot snapshot.text) snapshot target
  onFiles (removeTree snapshot)
  onProgress (tell (.restored target.text))
  return .restored

/-- Takes a snapshot of a target. -/
def takeSnapshot (target snapshot : Path) : Job Option World Unit := do
  onFiles (removeTree snapshot)
  copyAndTell (.createSnapshot snapshot.text) target snapshot
  say ("Backup created: " ++ snapshot.text)

/-- Runs a transaction on a target.  The change tells whether it made a difference. -/
def transact (target : Path) (change : Job Option World Bool) : Job Option World Outcome := do
  let files := (← get).files
  if !files.exists? target then Job.fail (.missingPath target.text)
  let snapshot := snapshotPath files target
  takeSnapshot target snapshot
  if ← change then keepTarget snapshot else restoreTarget target snapshot

end ClassNaming
