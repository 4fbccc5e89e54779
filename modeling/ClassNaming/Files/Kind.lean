import ClassNaming.Files.Path

/-!
# Kinds of files

The extension of its name tells whether a file is a class, an archive, or something else.  Capitals
count.

## Main Definitions

* `FileKind` - the kinds
* `Path.kind` - the kind of the file at a path
-/

namespace ClassNaming

/-- What a name says about a file. -/
inductive FileKind where
  | classFile
  | archive
  | other
  deriving Repr, DecidableEq

/-- The extension of classes. -/
def classExtension : String := "class"

/-- The extension of archives. -/
def archiveExtension : String := "jar"

/-- The kind of the file at a path. -/
def Path.kind (p : Path) : FileKind :=
  if p.extension? = some classExtension then .classFile
  else if p.extension? = some archiveExtension then .archive
  else .other

end ClassNaming
