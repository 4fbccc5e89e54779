import ClassNaming.Files.Lookup

/-!
# Siblings of a path

A run makes two kinds of things beside its target: the *snapshot* of the target, and the *staging
file* in which an archive is rebuilt.

## Main Definitions

* `snapshotPath` - where the snapshot of a target lies
* `stagingFile` - where an archive is rebuilt
-/

namespace ClassNaming

/-- What the name of a snapshot ends with, the extension apart. -/
def snapshotSuffix : String := "-backup"

/-- The name of the snapshot of a target that has no name of its own. -/
def namelessTarget : String := "target"

/-- The name of the snapshot of a target.  The suffix comes before the extension of a file. -/
def snapshotName (isFolder : Bool) (target : Path) : String :=
  if isFolder then target.fileName?.getD namelessTarget ++ snapshotSuffix
  else
    let stem := target.stem?.getD namelessTarget ++ snapshotSuffix
    match target.extension? with
    | some extension => stem ++ "." ++ extension
    | none => stem

/-- Where the snapshot of a target lies. -/
def snapshotPath (t : FileTree) (target : Path) : Path :=
  let name := snapshotName (t.isFolder target) target
  match target.parent? with
  | some parent => parent.join name
  | none => ⟨name⟩

/-- What is added to the path of an archive for the file in which it is rebuilt. -/
def stagingSuffix : String := ".remap-tmp"

/-- The path of the file in which an archive is rebuilt. -/
def stagingFile (archive : Path) : Path := ⟨archive.text ++ stagingSuffix⟩

end ClassNaming
