import ClassNaming.Archive.Rebuild
import ClassNaming.ClassFile.Renaming
import ClassNaming.Files.Kind
import ClassNaming.Log.Progress

/-!
# Renaming the details of all classes in an archive

An archive is rebuilt entry by entry.  The details of a class are renamed, an archive in it is
rebuilt in turn, and an entry that has no new content is copied.  Only the leading slashes of its
name get lost.

Directories are copied whatever their names are.

## Main Definitions

* `Rebuilt` - the entries of a rebuilt archive, and whether one of them is new
* `renameEntry` - the new content of an entry
* `renameArchive` - a rebuilt archive
* `renameAsFarAsPossible` - what an archive was rebuilt to when a failure came up

## Design Notes

An archive can unpack to itself, so how deep archives may lie within archives is limited; the limit
is far beyond what fits a memory.
-/

namespace ClassNaming.Archive

/-- The entries to be written for an archive, the latest first, and whether one of them has a new
content. -/
structure Rebuilt where
  changed : Bool
  done : List Packed

namespace Rebuilt

/-- No entry was done so far. -/
def start : Rebuilt := ⟨false, []⟩

/-- One more entry was done, which is new or not. -/
def add (r : Rebuilt) (isNew : Bool) (entry : Packed) : Rebuilt :=
  ⟨r.changed || isNew, entry :: r.done⟩

/-- The entries in their order. -/
def entries (r : Rebuilt) : List Packed := r.done.reverse

end Rebuilt

/-- The name under which an entry is written: without leading slashes. -/
def Header.writtenName (h : Header) : String :=
  String.ofList (h.name.toList.dropWhile (· == '/'))

/-- What an entry is. -/
def Header.kind (h : Header) : FileKind :=
  if h.isDirectory then .other else Path.kind ⟨h.writtenName⟩

/-- The location of an entry of an archive with a label. -/
def Header.location (label : String) (h : Header) : String := label ++ "!/" ++ h.writtenName

/-- The content of the entry at a location. -/
def readContent (archive : Archive) (h : Header) (location : String) :
    Job Option Progress ByteArray :=
  match archive.content h with
  | .ok content => pure content
  | .error (.opening e) => (Job.fail (.archive e)).during (.openEntry location)
  | .error (.reading e) => (Job.fail (.io e)).during (.readEntry location)

/-- The new content of a class at a location, if it changes. -/
def renameClassEntry (renamer : Renamer) (archive : Archive) (h : Header) (location : String) :
    Job Option Progress (Option ByteArray) := do
  count .seeClass
  let content ← archive.readContent h location
  let verdict ← (await .classFile (renameClass renamer content.data.toList)).during
    (.renameClass location)
  match verdict with
  | .renamed bytes =>
    count .renameClass
    tell (.classRenamed (.entry location))
    return some (ofOctets bytes)
  | .kept why =>
    if let some remark := why.remark? then tell (.remark remark)
    return none

/-- The new content of an archive at a location, if it changes. -/
def renameArchiveEntry (rebuild : String → Archive → Job Option Progress Rebuilt)
    (archive : Archive) (h : Header) (location : String) :
    Job Option Progress (Option ByteArray) := do
  count .seeArchive
  let content ← archive.readContent h location
  let inner ← (demand .archive (Archive.ofBytes content)).during (.readStructure location)
  let rebuilt ← rebuild location inner
  if rebuilt.changed then
    count .rebuildArchive
    tell (.archiveRebuilt (.entry location))
    return some (encode rebuilt.entries)
  else return none

/-- What is written for an entry, and whether its content is new. -/
def renameEntry (renamer : Renamer) (rebuild : String → Archive → Job Option Progress Rebuilt)
    (label : String) (archive : Archive) (h : Header) : Job Option Progress (Bool × Packed) := do
  let raw ← demand .archive (archive.rawContent h)
  let location := h.location label
  let replacement ← match h.kind with
    | .classFile => renameClassEntry renamer archive h location
    | .archive => renameArchiveEntry rebuild archive h location
    | .other => pure none
  match replacement with
  | some content => return (true, Packed.renewed h h.writtenName content)
  | none =>
    tell (.copied location)
    return (false, Packed.copied h h.writtenName raw)

/-- Rebuilds entries one by one up to the first failure. -/
def renameEach (rename : Header → Job Option Progress (Bool × Packed)) (done : Rebuilt) :
    List Header → Job Option Progress (Rebuilt × Option Failure)
  | [] => return (done, none)
  | h :: rest => fun progress => do
    match ← (rename h).runOn progress with
    | (.error failure, progress) => return (.ok (done, some failure), progress)
    | (.ok (isNew, entry), progress) =>
      (renameEach rename (done.add isNew entry) rest).runOn progress

/-- A rebuilt archive, or the failure that came up. -/
def complete : Rebuilt × Option Failure → Job Option Progress Rebuilt
  | (rebuilt, none) => return rebuilt
  | (_, some failure) => throw failure

/-- Rebuilds an archive that may hold archives so many levels deep, up to the first failure. -/
def renameNested (renamer : Renamer) :
    Nat → String → Archive → Job Option Progress (Rebuilt × Option Failure)
  | 0, _, _ => return (.start, some (Failure.ofCause .nestedTooDeep))
  | depth + 1, label, archive =>
    let rebuild (label : String) (inner : Archive) : Job Option Progress Rebuilt := do
      complete (← renameNested renamer depth label inner)
    renameEach (renameEntry renamer rebuild label archive) .start archive.headers

/-- How deep archives may lie within archives. -/
def nestingLimit : Nat := 0x100000000

/-- Rebuilds an archive that is called by a label.  Entries before the first failure are there in
any case. -/
def renameAsFarAsPossible (renamer : Renamer) (label : String) (archive : Archive) :
    Job Option Progress (Rebuilt × Option Failure) :=
  renameNested renamer nestingLimit label archive

/-- Rebuilds an archive that is called by a label. -/
def renameArchive (renamer : Renamer) (label : String) (archive : Archive) :
    Job Option Progress Rebuilt := do
  complete (← archive.renameAsFarAsPossible renamer label)

end ClassNaming.Archive
