import ClassNaming.Files.Lookup

/-!
# Reading and changing a file tree

Each operation either does what it is named for, or fails and tells why.  Those that consist of
several steps may fail between two of them; the steps before stay done.

Reading and writing follow links, so writing through a link that leads nowhere makes the file that
it leads to.  Everything else works on the link itself.

## Main Definitions

* `FileJob` - an operation on a file tree
* `readFile`, `readText`, `writeFile`, `copyFile` - contents
* `createFolder`, `createFolders` - folders
* `readLink`, `createLink` - links
* `removeFile`, `removeFolder`, `removeAll`, `moveFile` - what is there goes elsewhere
-/

namespace ClassNaming

/-- An operation on a file tree. -/
abbrev FileJob : Type → Type := ExceptT IoError (StateM FileTree)

namespace FileTree

/-- What a path leads to, perhaps a link. -/
def inspect (p : Path) : FileJob Item := do
  let (_, item) ← ((← get).find .entry p : Except IoError (Spot × Item))
  return item

/-! ### Contents -/

/-- The content of a file. -/
def readFile (p : Path) : FileJob ByteArray := do
  match ← ((← get).find .content p : Except IoError (Spot × Item)) with
  | (_, .file content) => return content
  | _ => throw .isDirectory

/-- The content of a file as a text. -/
def readText (p : Path) : FileJob String := do
  match String.fromUTF8? (← readFile p) with
  | some text => return text
  | none => throw .invalidText

/-- Gives a file a content, and makes it if it is not there. -/
def writeFile (p : Path) (content : ByteArray) : FileJob Unit := do
  let t ← get
  let spot ← (t.resolve .writing p : Except IoError Spot)
  if t.item? spot = some .folder then throw .isDirectory
  set (t.put spot (.file content))

/-- Makes a file with the content of another one.  The copy is emptied before it is filled, so a
file that is copied to itself becomes empty. -/
def copyFile (source destination : Path) : FileJob Unit := do
  let _ ← readFile source
  writeFile destination ByteArray.empty
  writeFile destination (← readFile source)

/-! ### Folders and links -/

/-- Makes a folder in a folder that is there. -/
def createFolder (p : Path) : FileJob Unit := do
  let t ← get
  let spot ← (t.resolveClosed p : Except IoError Spot)
  if (t.item? spot).isSome then throw .alreadyExists
  set (t.put spot .folder)

/-- Makes a folder, unless it is there. -/
def ensureFolder (p : Path) : FileJob Unit :=
  tryCatch (createFolder p) fun e => do
    if !(← get).isFolder p then throw e

/-- Makes a folder, and at most so many of the folders above it, unless they are there. -/
def createFoldersUpTo : Nat → Path → FileJob Unit
  | 0, p => ensureFolder p
  | above + 1, p =>
    tryCatch (ensureFolder p) fun e =>
      match e, p.parent? with
      | .notFound, some parent => do
        createFoldersUpTo above parent
        ensureFolder p
      | e, _ => throw e

/-- Makes a folder and all folders above it, unless they are there. -/
def createFolders (p : Path) : FileJob Unit := createFoldersUpTo p.parts.length p

/-- The path that a link holds. -/
def readLink (p : Path) : FileJob Path := do
  match ← inspect p with
  | .link target => return target
  | _ => throw .invalidArgument

/-- Makes a link that holds a path. -/
def createLink (target p : Path) : FileJob Unit := do
  let t ← get
  let spot ← (t.resolveClosed p : Except IoError Spot)
  if (t.item? spot).isSome then throw .alreadyExists
  if p.endsOpen then throw .notFound
  set (t.put spot (.link target))

/-! ### Removing and moving -/

/-- Removes a file or a link. -/
def removeFile (p : Path) : FileJob Unit := do
  let t ← get
  match ← (t.find .entry p : Except IoError (Spot × Item)) with
  | (_, .folder) => throw .isDirectory
  | (spot, _) => set (t.drop spot)

/-- Removes an empty folder.  The path must end with the name of the folder. -/
def removeFolder (p : Path) : FileJob Unit := do
  let t ← get
  let (spot, item) ← (t.itemAt (t.resolveClosed p) : Except IoError (Spot × Item))
  if item ≠ .folder then throw .notDirectory
  if (Path.trimIdle p.pieces).isEmpty then throw .busy
  if p.closed.wantsFolder then throw .invalidArgument
  if p.fileName?.isNone || !(t.itemsBelow spot).isEmpty then throw .directoryNotEmpty
  set (t.drop spot)

/-- Removes a link, or a folder with everything below it. -/
def removeAll (p : Path) : FileJob Unit := do
  let t ← get
  match ← (t.find .entry p : Except IoError (Spot × Item)) with
  | (spot, .link _) => set (t.drop spot)
  | (_, .file _) => throw .notDirectory
  | (spot, .folder) =>
    set (t.dropBelow spot)
    -- If the path led through what was below the folder, there is nothing left to remove.
    tryCatch (removeFolder p) fun
      | .notFound => pure ()
      | e => throw e

/-- Moves a file or a link to another path, in place of any file or link there. -/
def moveFile (source destination : Path) : FileJob Unit := do
  let t ← get
  let (spot, item) ← (t.find .entry source : Except IoError (Spot × Item))
  if item = .folder then throw .isDirectory
  let goal ← (t.resolve .entry destination : Except IoError Spot)
  if t.item? goal = some .folder then throw .isDirectory
  set ((t.drop spot).put goal item)

end FileTree

end ClassNaming
