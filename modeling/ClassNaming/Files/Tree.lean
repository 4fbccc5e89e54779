import ClassNaming.Files.Path
import Std.Data.ExtTreeMap

/-!
# File trees

A file tree has folders, files and symbolic links.  Each of them lies at a *spot*, the list of names
that leads to it from the root; the root itself is always a folder.  Spots are ordered like lists of
names, so that a folder comes before what lies below it.

## Main Definitions

* `Item` - a folder, a file or a link
* `FileTree` - what lies at which spot
* `FileTree.item?` - what lies at a spot
* `FileTree.put`, `FileTree.drop`, `FileTree.dropBelow` - changes at a spot

## Design Notes

Two trees with the same items at all spots are equal.
-/

namespace ClassNaming

/-- What lies at a spot. -/
inductive Item where
  | folder
  | file (content : ByteArray)
  /-- A symbolic link to a path, which need not lead anywhere. -/
  | link (target : Path)

/-- Files are equal if their bytes are. -/
instance : DecidableEq Item
  | .folder, .folder => isTrue rfl
  | .file a, .file b =>
    if h : a.data = b.data then isTrue (congrArg Item.file (congrArg ByteArray.mk h))
    else isFalse fun e => h (by cases e; rfl)
  | .link a, .link b =>
    if h : a = b then isTrue (congrArg Item.link h) else isFalse fun e => h (by cases e; rfl)
  | .folder, .file _ | .folder, .link _ | .file _, .folder | .file _, .link _
  | .link _, .folder | .link _, .file _ => isFalse nofun

/-- The names that lead from the root to an item. -/
abbrev Spot := List String

/-- Folders, files and links. -/
structure FileTree where
  items : Std.ExtTreeMap Spot Item

namespace FileTree

/-- A tree with nothing below its root. -/
def empty : FileTree := ⟨∅⟩

/-- What lies at a spot. -/
def item? (t : FileTree) (spot : Spot) : Option Item :=
  if spot = [] then some .folder else t.items[spot]?

/-- The tree with an item at a spot, in place of what was there. -/
def put (t : FileTree) (spot : Spot) (item : Item) : FileTree := ⟨t.items.insert spot item⟩

/-- The tree with nothing at a spot. -/
def drop (t : FileTree) (spot : Spot) : FileTree := ⟨t.items.erase spot⟩

/-- Whether a spot lies below another one. -/
def isBelow (folder spot : Spot) : Bool := folder.isPrefixOf spot && folder ≠ spot

/-- The tree with nothing below a spot. -/
def dropBelow (t : FileTree) (spot : Spot) : FileTree :=
  ⟨t.items.filter fun other _ => !isBelow spot other⟩

/-- The spots below another one, with their items, in their order. -/
def itemsBelow (t : FileTree) (spot : Spot) : List (Spot × Item) :=
  t.items.toList.filter fun (other, _) => isBelow spot other

end FileTree

end ClassNaming
