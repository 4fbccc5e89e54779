import ClassNaming.Text.Occurrence

/-!
# Paths

A path is a text, and is shown as it was given.  Slashes separate its pieces; empty pieces and
single dots mean nothing, save for a single dot at the very start.  What remains are the *parts* of
the path.  A path that starts with a slash is absolute.

The last part names a file if it is an ordinary name.  The name divides at its last dot into stem
and extension; a dot at the very start of it does not count.

## Main Definitions

* `Path` - a path
* `Path.parts` - its parts
* `Path.fileName?`, `Path.stem?`, `Path.extension?`, `Path.parent?` - what it consists of
* `Path.join`, `Path.absolute` - paths made from others
-/

namespace ClassNaming

/-- A path as it was given. -/
structure Path where
  text : String
  deriving Repr, DecidableEq

/-- A part of a path. -/
inductive PathPart where
  /-- The start of an absolute path. -/
  | root
  /-- A single dot at the start of a path. -/
  | here
  /-- Two dots. -/
  | up
  | name (name : String)
  deriving Repr, DecidableEq

/-- The text of a part other than the root. -/
def PathPart.text : PathPart → String
  | .root => ""
  | .here => "."
  | .up => ".."
  | .name text => text

namespace Path

/-- The character between the pieces of a path. -/
def separator : Char := '/'

/-- Whether a path starts at the root. -/
def isAbsolute (p : Path) : Bool := p.text.toList.head? == some separator

/-- Whether a path ends with a separator. -/
def endsOpen (p : Path) : Bool := p.text.toList.getLast? == some separator

/-- The pieces of a path behind its root, the meaningless ones among them. -/
def pieces (p : Path) : List String :=
  (Text.splitAtEach separator (if p.isAbsolute then p.text.toList.drop 1 else p.text.toList)).map
    String.ofList

/-- Whether a piece means nothing, unless it is a dot at the start. -/
def isIdle (piece : String) : Bool := piece == "" || piece == "."

/-- The part that a piece stands for, if it is not idle. -/
def partOf (piece : String) : PathPart := if piece == ".." then .up else .name piece

/-- The parts among the pieces that follow other ones. -/
def laterParts (pieces : List String) : List PathPart :=
  (pieces.filter fun piece => !isIdle piece).map partOf

/-- The parts of a path. -/
def parts (p : Path) : List PathPart :=
  if p.isAbsolute then .root :: laterParts p.pieces
  else
    match p.pieces with
    | "." :: later => .here :: laterParts later
    | pieces => laterParts pieces

/-- The name that a path ends with. -/
def fileName? (p : Path) : Option String :=
  match p.parts.getLast? with
  | some (.name name) => some name
  | _ => none

/-- The stem and the extension of a name. -/
def divide (name : String) : String × Option String :=
  let reversed := name.toList.reverse
  let extension := reversed.takeWhile (· ≠ '.')
  match reversed.drop extension.length with
  | _ :: stem =>
    if stem.isEmpty then (name, none)
    else (String.ofList stem.reverse, some (String.ofList extension.reverse))
  | [] => (name, none)

/-- The stem of the name that a path ends with. -/
def stem? (p : Path) : Option String := p.fileName?.map fun name => (divide name).1

/-- The extension of the name that a path ends with. -/
def extension? (p : Path) : Option String := p.fileName?.bind fun name => (divide name).2

/-- Pieces without the idle ones at the end. -/
def trimIdle (pieces : List String) : List String :=
  (pieces.reverse.dropWhile isIdle).reverse

/-- The part of a path before its last part: none for the root, and for a path without parts. -/
def parent? (p : Path) : Option Path :=
  let between (pieces : List String) : String := String.intercalate "/" pieces
  match p.parts.reverse with
  | [] | [.root] => none
  | _ =>
    let kept := trimIdle (trimIdle p.pieces).dropLast
    if p.isAbsolute then some ⟨"/" ++ between kept⟩
    else
      match p.pieces with
      | "." :: _ =>
        -- A dot at the start is a part of its own, so it is the parent of what follows it.
        if p.parts.length ≤ 1 then some ⟨""⟩
        else some ⟨between (if kept.isEmpty then ["."] else kept)⟩
      | _ => some ⟨between kept⟩

/-- A relative path behind another path. -/
def join (p : Path) (rest : String) : Path :=
  if p.text.isEmpty || p.endsOpen then ⟨p.text ++ rest⟩ else ⟨p.text ++ "/" ++ rest⟩

/-- A path below another one, given by its names. -/
def below (p : Path) (names : List String) : Path := names.foldl join p

/-- An absolute path without its idle pieces, given the directory that relative paths start from.  A
separator at the end stays, and so do two of them at the start if no third one follows. -/
def absolute (base p : Path) : Path :=
  let names := p.parts.filter (fun part => part ≠ .root && part ≠ .here) |>.map PathPart.text
  let start : Path :=
    if p.isAbsolute then
      match p.text.toList with
      | '/' :: '/' :: '/' :: _ => ⟨"/"⟩
      | '/' :: '/' :: _ => ⟨"//"⟩
      | _ => ⟨"/"⟩
    else base
  let path := start.below names
  if p.endsOpen then path.join "" else path

end Path

end ClassNaming
