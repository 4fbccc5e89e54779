import ClassNaming.Files.Tree
import ClassNaming.IoError

/-!
# Where a path leads

A path is followed part by part.  Every part but the last must lead to a folder, perhaps through
links; a link stands for the folder or file that its own path leads to, starting from the folder
that the link lies in.  Two dots lead to the folder above, wherever a link has led.

Nothing needs to lie where the last part leads.  If that is a link, it depends on the aim whether it
is followed.  A path that ends with a separator or a single dot asks for a folder, and its last link
is followed for any aim but one: where a file is to be written, a separator at the end, be it of the
path or of the last link, is refused at once.

Relative paths start at the root.  A path must not be empty or too long, and holds no NUL.

## Main Definitions

* `Aim` - what a path is followed for
* `Path.check` - refuses what cannot be a path
* `FileTree.resolve` - the spot that a path leads to
* `FileTree.find` - the item that a path leads to, with its spot
* `FileTree.isFolder`, `FileTree.isFile`, `FileTree.exists` - what a path leads to through all links
-/

namespace ClassNaming

/-- Whether a path asks for a folder: it ends with a separator or a single dot behind a part. -/
def Path.wantsFolder (p : Path) : Bool :=
  match p.pieces.getLast? with
  | some piece => Path.isIdle piece && !(Path.trimIdle p.pieces).isEmpty
  | none => false

/-- What is done on the way along a path. -/
inductive PathStep where
  | follow (part : PathPart)
  /-- A separator stands at the end of the path. -/
  | close
  deriving Repr, DecidableEq

/-- What a path asks for at its end, beyond its parts. -/
def Path.closing (p : Path) : List PathStep :=
  if !p.wantsFolder then []
  else if (p.pieces.reverse.takeWhile Path.isIdle).all String.isEmpty then [.close]
  else [.follow .here]

/-- The steps along a path. -/
def Path.steps (p : Path) : List PathStep := p.parts.map .follow ++ p.closing

/-- A path without the separators at its end, the root apart. -/
def Path.closed (p : Path) : Path :=
  match p.text.toList.reverse.dropWhile (· == Path.separator) with
  | [] => if p.isAbsolute then ⟨"/"⟩ else p
  | kept => ⟨String.ofList kept.reverse⟩

/-- The size in bytes from which on a path is too long, whatever it leads to. -/
def pathLimit : Nat := 4096

/-- Refuses what cannot be a path. -/
def Path.check (p : Path) : Except IoError Unit :=
  if p.text.toList.contains '\x00' then .error .nulInPath
  else if p.text.isEmpty then .error .notFound
  else if pathLimit ≤ p.text.utf8ByteSize then .error .nameTooLong
  else .ok ()

/-- The largest size of a name in bytes. -/
def nameLimit : Nat := 255

/-- How many links are followed on the way along a path. -/
def linkLimit : Nat := 40

/-- What a path is followed for. -/
inductive Aim where
  /-- What lies there, perhaps a link. -/
  | entry
  /-- What it leads to through all links. -/
  | content
  /-- A file that is to be written, through all links. -/
  | writing
  deriving Repr, DecidableEq

namespace FileTree

/-- Where a walk along a path stops. -/
inductive Stop where
  /-- All steps are done. -/
  | arrived (spot : Spot)
  /-- A link must be followed, which lies in a folder; then the rest of the steps. -/
  | link (folder : Spot) (target : Path) (rest : List PathStep)

/-- Does steps from a folder on, up to the first link that must be followed. -/
def advance (t : FileTree) (aim : Aim) (spot : Spot) : List PathStep → Except IoError Stop
  | [] => .ok (.arrived spot)
  | .close :: rest => advance t aim spot rest
  | .follow .root :: rest => advance t aim [] rest
  | .follow .here :: rest => advance t aim spot rest
  | .follow .up :: rest => advance t aim spot.dropLast rest
  | .follow (.name name) :: rest =>
    if aim = .writing ∧ rest = [.close] then .error .isDirectory
    else if name.utf8ByteSize > nameLimit then .error .nameTooLong
    else
      let next := spot ++ [name]
      match t.item? next with
      | some .folder => advance t aim next rest
      | some (.link target) =>
        if rest.isEmpty && aim = .entry then .ok (.arrived next)
        else .ok (.link spot target rest)
      | some (.file _) => if rest.isEmpty then .ok (.arrived next) else .error .notDirectory
      | none => if rest.isEmpty then .ok (.arrived next) else .error .notFound

/-- Does steps through all links, of which there may be fewer than `links`. -/
def resolveFrom (t : FileTree) (aim : Aim) :
    Nat → Spot → List PathStep → Except IoError Spot
  | 0, _, _ => .error .tooManyLinks
  | links + 1, spot, steps =>
    match advance t aim spot steps with
    | .error e => .error e
    | .ok (.arrived spot) => .ok spot
    | .ok (.link folder target rest) =>
      resolveFrom t aim links folder (target.steps ++ rest)

/-- The spot that a path leads to. -/
def resolve (t : FileTree) (aim : Aim) (p : Path) : Except IoError Spot :=
  match p.check with
  | .error e => .error e
  | .ok _ => resolveFrom t aim (linkLimit + 1) [] p.steps

/-- The spot of what a path names, perhaps a link, where separators at its end do not count. -/
def resolveClosed (t : FileTree) (p : Path) : Except IoError Spot :=
  match p.check with
  | .error e => .error e
  | .ok _ => resolveFrom t .entry (linkLimit + 1) [] p.closed.steps

/-- What lies at a spot, if that was found, with the spot. -/
def itemAt (t : FileTree) : Except IoError Spot → Except IoError (Spot × Item)
  | .error e => .error e
  | .ok spot =>
    match t.item? spot with
    | some item => .ok (spot, item)
    | none => .error .notFound

/-- What a path leads to, with its spot. -/
def find (t : FileTree) (aim : Aim) (p : Path) : Except IoError (Spot × Item) :=
  t.itemAt (t.resolve aim p)

/-- Whether a path leads to anything. -/
def exists? (t : FileTree) (p : Path) : Bool := (t.find .content p).isOk

/-- Whether a path leads to a folder. -/
def isFolder (t : FileTree) (p : Path) : Bool :=
  match t.find .content p with
  | .ok (_, .folder) => true
  | _ => false

/-- Whether a path leads to a file. -/
def isFile (t : FileTree) (p : Path) : Bool :=
  match t.find .content p with
  | .ok (_, .file _) => true
  | _ => false

end FileTree

end ClassNaming
