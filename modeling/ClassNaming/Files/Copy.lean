import ClassNaming.Files.Change
import ClassNaming.Files.Listing
import ClassNaming.Job

/-!
# Copying and removing whole trees

A copy has the same folders, files and links as what it was made of.  Links are made anew with the
same target, and are never followed.  Nothing may lie where a copy is made, not even a link that
leads nowhere.

What is to be copied is listed before the copy is begun, so a copy into itself comes to an end.

## Main Definitions

* `copyTree` - copies a file, a link, or a folder with everything below it
* `removeTree` - removes whatever lies at a path
-/

namespace ClassNaming

open FileTree

/-- An operation on the files as a part of an action. -/
def filing {α : Type} (action : Action) (job : FileJob α) : Job Id FileTree α :=
  (attempt .io job).during action

/-- The items at and below a root as they are now. -/
def listNow (root : Path) : Job Id FileTree (List ListedItem) := do
  demand (fun (path, e) => .listing root.text path.text e) ((← get).listing root)

/-- Makes a link anew. -/
def copyLink (source destination : Path) : Job Id FileTree Unit := do
  let target ← filing (.readLink source.text) (readLink source)
  filing (.createLink destination.text target.text) (createLink target destination)

/-- The path that a listed item is copied to.  That of the root itself ends with a separator. -/
def ListedItem.destination (root : Path) (e : ListedItem) : Path :=
  if e.names.isEmpty then root.join "" else root.below e.names

/-- Copies a listed item from one root to another. -/
def copyEntry (source destination : Path) (e : ListedItem) : Job Id FileTree Unit :=
  let origin := e.path source
  let copy := e.destination destination
  match e.kind with
  | .folder => filing (.createDirectory copy.text) (createFolders copy)
  | .file => filing (.copyFile origin.text copy.text) (copyFile origin copy)
  | .link => copyLink origin copy

/-- Copies whatever lies at a path to another path, where nothing may lie. -/
def copyTree (source destination : Path) : Job Id FileTree Unit := do
  if ((← get).find .entry destination).isOk then Job.fail (.copyTargetExists destination.text)
  match ← filing (.inspect source.text) (inspect source) with
  | .link _ => copyLink source destination
  | .file _ => filing (.copyFile source.text destination.text) (copyFile source destination)
  | .folder => (← listNow source).forM (copyEntry source destination)

/-- Removes whatever lies at a path, if anything does. -/
def removeTree (p : Path) : Job Id FileTree Unit := do
  match (← get).find .entry p with
  | .error _ => return
  | .ok (_, .folder) => filing (.removeDirectory p.text) (removeAll p)
  | .ok _ => filing (.removeFile p.text) (removeFile p)

end ClassNaming
