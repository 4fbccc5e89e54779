import ClassNaming.Archive.Checksum
import ClassNaming.Archive.Deflate
import ClassNaming.Archive.Directory

/-!
# Entries of an archive

The *raw* content of an entry is what the archive holds of it; it follows a local header, of which
only the sizes of its name and extra field matter.  The content proper is what the raw content
becomes by the method of the entry.  Its checksum must be the declared one, while its declared size
is not looked at.

## Main Definitions

* `Header.isDirectory`, `Header.mode?` - what kind of file an entry stands for
* `Archive.rawContent` - the bytes that the archive holds
* `Archive.content` - the bytes that they stand for
-/

namespace ClassNaming.Archive

/-- The method of contents that are held as they are. -/
def storedMethod : Nat := 0

/-- The method of deflated contents. -/
def deflatedMethod : Nat := 8

/-- Whether an entry is a directory: its name ends with a slash or a backslash. -/
def Header.isDirectory (h : Header) : Bool :=
  match h.name.toList.getLast? with
  | some c => c == '/' || c == '\\'
  | none => false

/-- The host system that keeps the mode in the high half of the attributes. -/
def unixHost : Nat := 3

/-- The host system that marks directories and write protection in the low bits. -/
def dosHost : Nat := 0

/-- The mode of the file that an entry stands for, if its attributes tell it. -/
def Header.mode? (h : Header) : Option Nat :=
  let attributes := h.attributes.toNat
  if attributes = 0 then none
  else if h.host = unixHost then some (attributes / 0x10000)
  else if h.host = dosHost then
    let mode := if attributes.testBit 4 then 0o40775 else 0o100664
    some (if attributes.testBit 0 then mode &&& 0o0555 else mode)
  else none

/-- The signature of a local header. -/
def localSignature : Nat := 0x04034B50

/-- The size of a local header without its name and extra field. -/
def localSize : Nat := 30

/-- The bytes that the archive holds for an entry, as far as there are any. -/
def rawContent (archive : Archive) (h : Header) : Except ArchiveError ByteArray := do
  let bytes := archive.bytes
  if h.start + 4 > bytes.size then throw (.io .shortData)
  if numberAt bytes h.start 4 ≠ localSignature then throw (.invalid .badLocalHeader)
  if h.start + localSize > bytes.size then throw (.io .shortData)
  let place := h.start + localSize + numberAt bytes (h.start + 26) 2
    + numberAt bytes (h.start + 28) 2
  return slice bytes place h.compressedSize

/-- What was wrong when a content was to be read: the entry could not be opened, or its data could
not be used up. -/
inductive ContentError where
  | opening (e : ArchiveError)
  | reading (e : IoError)
  deriving Repr, DecidableEq

/-- A content with the declared checksum. -/
def checked (h : Header) (content : ByteArray) : Except ContentError ByteArray :=
  if checksum content = h.crc then .ok content else .error (.reading .badChecksum)

/-- The content of an entry. -/
def content (archive : Archive) (h : Header) : Except ContentError ByteArray :=
  if h.isEncrypted then .error (.opening (.unsupported .encrypted))
  else
    match archive.rawContent h with
    | .error e => .error (.opening e)
    | .ok raw =>
      if h.method = storedMethod then checked h raw
      else if h.method = deflatedMethod then
        match inflate raw with
        | .ok content => checked h content
        | .error e => .error (.reading e)
      else .error (.opening (.unsupported .method))

end ClassNaming.Archive
