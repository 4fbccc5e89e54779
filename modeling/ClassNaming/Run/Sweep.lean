import ClassNaming.Archive.Renaming
import ClassNaming.Run.Sibling
import ClassNaming.Run.World

/-!
# Sweeping a target

A sweep renames the details of every class at or below a root, in place, and rebuilds every archive.
The files are listed before the first one is changed, so a staging file is never swept itself.

An archive is rebuilt in a staging file beside it, which takes its place only if a class in it
changed.  If rebuilding fails, the staging file is removed, and the archive is as it was.  Until
then the staging file holds the entries that were done, as an archive of their own; that stays where
the staging file is a link, for only the link is removed.

The first failure ends the sweep.  Files that were done before stay as they became.  A detail that
is renamed for ever is one at which the sweep never ends.

## Main Definitions

* `sweepFile` - what is done with a file
* `sweep` - what is done with a target
-/

namespace ClassNaming

open FileTree

/-- What is done with a class. -/
def sweepClass (renamer : Renamer) (path : Path) : Job Option World Unit := do
  onProgress (count .seeClass)
  let content ← onFiles (filing (.readClass path.text) (readFile path))
  let verdict ← (await .classFile (renameClass renamer content.data.toList)).during
    (.renameClass path.text)
  match verdict with
  | .renamed bytes =>
    onFiles (filing (.writeClass path.text) (writeFile path (Archive.ofOctets bytes)))
    onProgress (count .renameClass)
    onProgress (tell (.classRenamed (.file path.text)))
  | .kept why =>
    if let some remark := why.remark? then onProgress (tell (.remark remark))

/-- Rebuilds an archive in a staging file, and tells whether it changed. -/
def stageArchive (renamer : Renamer) (path staging : Path) : Job Option World Bool := do
  let content ← onFiles (filing (.openJar path.text) (readFile path))
  let archive ← (demand .archive (Archive.ofBytes content)).during (.readStructure path.text)
  let write (bytes : ByteArray) : Job Option World Unit :=
    onFiles (filing (.createStaging staging.text) (writeFile staging bytes))
  write ByteArray.empty
  let (rebuilt, failure) ← onProgress (archive.renameAsFarAsPossible renamer path.text)
  write (Archive.encode rebuilt.entries)
  match failure with
  | some failure => throw failure
  | none => return rebuilt.changed

/-- Removes a file if it can be removed. -/
def discard (path : Path) : Job Option World Unit :=
  onFiles (tryCatch (attempt .io (removeFile path)) fun _ => pure ())

/-- What is done with an archive. -/
def sweepArchive (renamer : Renamer) (path : Path) : Job Option World Unit := do
  onProgress (count .seeArchive)
  let staging := stagingFile path
  let changed ← tryCatch (stageArchive renamer path staging) fun failure => do
    discard staging
    throw failure
  if changed then
    onFiles (filing (.replaceArchive staging.text path.text) (moveFile staging path))
    onProgress (count .rebuildArchive)
    onProgress (tell (.archiveRebuilt (.file path.text)))
  else
    onFiles (filing (.removeStaging staging.text) (removeFile staging))
    onProgress (tell (.archiveUnchanged path.text))

/-- What is done with a file. -/
def sweepFile (renamer : Renamer) (path : Path) : Job Option World Unit :=
  match path.kind with
  | .classFile => sweepClass renamer path
  | .archive => sweepArchive renamer path
  | .other => onProgress (tell (.skipped path.text))

/-- The paths of the files at and below a root, in the order of the listing. -/
def filesUnder (root : Path) : Job Option World (List Path) := do
  tellListing
  let entries ← onFiles (listNow root)
  return (entries.filter fun e => e.kind = .file).map (ListedItem.path root)

/-- What is done with a target.  The counters of the sweep are given back. -/
def sweep (renamer : Renamer) (root : Path) : Job Option World Tally := do
  let paths ← filesUnder root
  onProgress (count fun _ => .zero)
  paths.forM (sweepFile renamer)
  return (← get).progress.tally

end ClassNaming
