import ClassNaming.Run.Program

/-!
# The command line

The program works on a file tree in memory.  Here that tree is taken from the disk, as far as a run
can come across it, and what a run has changed in it is brought back to the disk.

Links on the disk can be followed but not read, so a link is taken to lead where it leads in the
end, and new links are not brought back.

## Main Definitions

* `loadAt` - takes what lies at a spot from the disk
* `storeChanges` - brings changes back to the disk
* `main` - the program
-/

namespace ClassNaming

/-- The spot of an absolute path. -/
def spotOf (p : Path) : Spot :=
  p.parts.foldl
    (fun spot part =>
      match part with
      | .name name => spot ++ [name]
      | .up => spot.dropLast
      | _ => spot)
    []

/-- The absolute path of a spot. -/
def pathOf (spot : Spot) : String := "/" ++ String.intercalate "/" spot

/-- Takes what lies at and below a spot from the disk. -/
partial def loadAt (t : FileTree) (spot : Spot) : IO FileTree := do
  let place := (← IO.currentDir) / pathOf spot
  match ← place.symlinkMetadata.toBaseIO with
  | .error _ => return t
  | .ok found =>
    match found.type with
    | .dir =>
      let mut t := t.put spot .folder
      for entry in ← place.readDir do
        t ← loadAt t (spot ++ [entry.fileName])
      return t
    | .symlink =>
      match ← (IO.FS.realPath place).toBaseIO with
      | .ok goal => return t.put spot (.link ⟨goal.toString⟩)
      | .error _ => return t.put spot (.link ⟨pathOf spot ++ "-leads-nowhere"⟩)
    | _ => return t.put spot (.file (← IO.FS.readBinFile place))

/-- Takes what lies at a path from the disk, what a link there leads to, and the folders above. -/
def loadPath (t : FileTree) (p : Path) : IO FileTree := do
  let withFolders (t : FileTree) (spot : Spot) : FileTree :=
    (List.range spot.length).foldl
      (fun t size => if size = 0 then t else t.put (spot.take size) .folder) t
  let spot := spotOf p
  let t ← loadAt (withFolders t spot) spot
  match t.item? spot with
  | some (.link goal) => loadAt (withFolders t (spotOf goal)) (spotOf goal)
  | _ => return t

/-- Takes all that a run can come across from the disk. -/
def loadFor (directory : Path) (arguments : List String) : IO FileTree := do
  match Arguments.parse arguments with
  | .error _ => return .empty
  | .ok parsed =>
    let target := Path.absolute directory ⟨parsed.path⟩
    let t ← loadPath .empty target
    let t ← loadPath t (snapshotPath t target)
    let t ← loadPath t (stagingFile target)
    loadPath t (Path.absolute directory ⟨parsed.mapping⟩)

/-- Removes what lies at a spot from the disk. -/
def eraseAt (spot : Spot) : Item → IO Unit
  | .folder => IO.FS.removeDir (pathOf spot)
  | _ => IO.FS.removeFile (pathOf spot)

/-- Makes what a spot holds on the disk. -/
def storeAt (spot : Spot) : Item → IO Unit
  | .folder => IO.FS.createDir (pathOf spot)
  | .file content => IO.FS.writeBinFile (pathOf spot) content
  | .link _ => pure ()

/-- Brings the changes from one tree to another one back to the disk: first everything goes that is
no longer there or of another kind, then everything new is made, folders before what they hold. -/
def storeChanges (old new : FileTree) : IO Unit := do
  for (spot, item) in old.items.toList.reverse do
    if (new.item? spot).map Item.kind ≠ some item.kind then eraseAt spot item
  for (spot, item) in new.items.toList do
    let before := old.item? spot
    if before ≠ some item && (item ≠ .folder || before.map Item.kind ≠ some .folder) then
      storeAt spot item

end ClassNaming

open ClassNaming in
/-- Runs the program on the disk. -/
def main (arguments : List String) : IO UInt32 := do
  let directory : Path := ⟨(← IO.currentDir).toString⟩
  let old ← loadFor directory arguments
  -- A run that never ends is not over here either.
  let some (finish, new) := runProgram directory (← IO.getEnv "RUST_LOG") arguments old | return 1
  storeChanges old new
  for line in finish.output do IO.println line
  for line in finish.errors do IO.eprintln line
  return UInt32.ofNat finish.status
