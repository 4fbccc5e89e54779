import ClassNaming.Files.Lookup

/-!
# Listings

A listing tells everything at and below a root: a folder before what lies in it, and what lies in a
folder in the order of the names.  Links are listed and not followed.

The root is treated otherwise.  If it leads to a file through links, the file is all there is; if it
is a link to a folder, it is listed as a link, and what lies below the folder is listed with it.

A folder is looked into by its path, so a listing fails if the path of a folder is too long.

## Main Definitions

* `ListedItem` - an item of a listing
* `FileTree.listing` - the items at and below a root
-/

namespace ClassNaming

/-- The kinds of items. -/
inductive ItemKind where
  | folder
  | file
  | link
  deriving Repr, DecidableEq

/-- The kind of an item. -/
def Item.kind : Item → ItemKind
  | folder => .folder
  | file _ => .file
  | link _ => .link

/-- A listed item: its kind, and the names that lead to it from the root of the listing. -/
structure ListedItem where
  names : List String
  kind : ItemKind
  deriving Repr, DecidableEq

/-- The path of a listed item: the root as it was given, and the names. -/
def ListedItem.path (root : Path) (e : ListedItem) : Path := root.below e.names

namespace FileTree

/-- The items below a spot. -/
def entriesBelow (t : FileTree) (spot : Spot) : List ListedItem :=
  (t.itemsBelow spot).map fun (other, item) => ⟨other.drop spot.length, item.kind⟩

/-- The first of the listed folders that cannot be looked into, and why. -/
def barred? (root : Path) (entries : List ListedItem) : Option (Path × IoError) :=
  (entries.filter fun e => e.kind = .folder).findSome? fun e =>
    match (e.path root).check with
    | .error why => some (e.path root, why)
    | .ok _ => none

/-- The items at and below a root.  A failure comes with the path that could not be looked at. -/
def listing (t : FileTree) (root : Path) : Except (Path × IoError) (List ListedItem) :=
  if t.isFile root then .ok [⟨[], .file⟩]
  else
    match t.find .entry root, t.find .content root with
    | .error e, _ => .error (root, e)
    | .ok _, .error e => .error (root, e)
    | .ok (_, item), .ok (spot, .folder) =>
      let entries := t.entriesBelow spot
      match barred? root entries with
      | some failure => .error failure
      | none => .ok (⟨[], item.kind⟩ :: entries)
    | .ok (_, item), .ok _ => .ok [⟨[], item.kind⟩]

end FileTree

end ClassNaming
