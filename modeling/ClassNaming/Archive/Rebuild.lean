import ClassNaming.Archive.Entry

/-!
# Writing archives

An archive is written as the local headers and raw contents of its entries, the central directory,
and an end record.  Sizes and places beyond 32 bits go into extra fields, and an archive beyond the
limits of the end record gets the 64-bit record and its locator.

A *copied* entry keeps its raw content and everything that its header declares about it.  A
*renewed* entry holds a new content: as it is if the old one was held so, deflated otherwise.  Date
and time are kept by both; of the mode only the permissions are, and the kind of file becomes that
of a plain one or, for a copy with a mode, none.

## Main Definitions

* `Packed` - an entry to be written
* `Packed.copied`, `Packed.renewed` - the two kinds
* `encode` - the bytes of an archive
-/

namespace ClassNaming.Archive

/-- An entry to be written: its raw content, and what is declared about it. -/
structure Packed where
  name : String
  method : Nat
  time : UInt16
  date : UInt16
  crc : UInt32
  compressedSize : Nat
  size : Nat
  mode : Nat
  raw : ByteArray

/-- The bits of a mode that tell the permissions. -/
def permissionBits : Nat := 0o777

/-- The bits of a mode that mark a plain file. -/
def plainFile : Nat := 0o100000

/-- The permissions of a file of which none are known. -/
def defaultPermissions : Nat := 0o644

/-- An entry with its raw content under a name. -/
def Packed.copied (h : Header) (name : String) (raw : ByteArray) : Packed :=
  { name, raw
    method := h.method
    time := h.time
    date := h.date
    crc := h.crc
    compressedSize := h.compressedSize
    size := h.size
    mode := match h.mode? with
      | some mode => mode &&& permissionBits
      | none => plainFile ||| defaultPermissions }

/-- An entry with a new content under a name. -/
def Packed.renewed (h : Header) (name : String) (content : ByteArray) : Packed :=
  let isStored := h.method == storedMethod
  let raw := if isStored then content else deflateStored content
  { name, raw
    method := if isStored then storedMethod else deflatedMethod
    time := h.time
    date := h.date
    crc := checksum content
    compressedSize := raw.size
    size := content.size
    mode := plainFile ||| match h.mode? with
      | some mode => mode &&& permissionBits
      | none => defaultPermissions }

/-- The version of the format that a reader needs for an entry, which depends on whether any of its
numbers is beyond 32 bits. -/
def neededVersion (isLarge : Bool) : Nat := if isLarge then 45 else 20

/-- The version of the format that a writer follows. -/
def writtenVersion : Nat := 46

/-- The flags of an entry: only whether its name is to be read as UTF-8. -/
def Packed.flags (p : Packed) : Nat :=
  if p.name.toList.all fun c => c.toNat < 0x80 then 0 else 0x800

/-- The bytes of the name. -/
def Packed.nameBytes (p : Packed) : List UInt8 := p.name.toUTF8.data.toList

/-- Whether a size of the entry is beyond 32 bits. -/
def Packed.isLarge (p : Packed) : Bool := full32 < max p.compressedSize p.size

/-- The fields that both headers of an entry share: from the flags to the checksum. -/
def Packed.commonFields (p : Packed) : List UInt8 :=
  littleEndian 2 p.flags ++ littleEndian 2 p.method
    ++ littleEndian 2 p.time.toNat ++ littleEndian 2 p.date.toNat ++ littleEndian 4 p.crc.toNat

/-- A part of an extra field that holds the given 64-bit numbers, if there are any. -/
def wideField (numbers : List Nat) : List UInt8 :=
  if numbers.isEmpty then []
  else littleEndian 2 1 ++ littleEndian 2 (8 * numbers.length) ++ numbers.flatMap (littleEndian 8)

/-- The local header of an entry. -/
def Packed.localHeader (p : Packed) : List UInt8 :=
  let wide := wideField (if p.isLarge then [p.size, p.compressedSize] else [])
  littleEndian 4 localSignature ++ littleEndian 2 (neededVersion p.isLarge) ++ p.commonFields
    ++ littleEndian 4 (if p.isLarge then full32 else p.compressedSize)
    ++ littleEndian 4 (if p.isLarge then full32 else p.size)
    ++ littleEndian 2 p.nameBytes.length ++ littleEndian 2 wide.length
    ++ p.nameBytes ++ wide

/-- The header of an entry in the central directory, given the place of its local header. -/
def Packed.centralHeader (p : Packed) (start : Nat) : List UInt8 :=
  let wide := wideField ([p.size, p.compressedSize, start].filter (full32 < ·))
  littleEndian 4 centralSignature ++ littleEndian 2 (unixHost * 0x100 + writtenVersion)
    ++ littleEndian 2 (neededVersion !wide.isEmpty) ++ p.commonFields
    ++ littleEndian 4 (min p.compressedSize full32) ++ littleEndian 4 (min p.size full32)
    ++ littleEndian 2 p.nameBytes.length ++ littleEndian 2 wide.length
    ++ littleEndian 2 0 ++ littleEndian 2 0 ++ littleEndian 2 0
    ++ littleEndian 4 (p.mode * 0x10000) ++ littleEndian 4 (min start full32)
    ++ p.nameBytes ++ wide

/-- The local part of an archive, and the central directory that belongs to it. -/
structure Body where
  contents : ByteArray
  directory : ByteArray

/-- A body with one more entry. -/
def Body.add (body : Body) (p : Packed) : Body :=
  { contents := body.contents ++ ofOctets p.localHeader ++ p.raw
    directory := body.directory ++ ofOctets (p.centralHeader body.contents.size) }

/-- The 64-bit end record with its locator. -/
def largeTail (entries directorySize directoryStart : Nat) : List UInt8 :=
  littleEndian 4 largeEndSignature ++ littleEndian 8 44
    ++ littleEndian 2 writtenVersion ++ littleEndian 2 writtenVersion
    ++ littleEndian 4 0 ++ littleEndian 4 0
    ++ littleEndian 8 entries ++ littleEndian 8 entries
    ++ littleEndian 8 directorySize ++ littleEndian 8 directoryStart
    ++ littleEndian 4 locatorSignature ++ littleEndian 4 0
    ++ littleEndian 8 (directoryStart + directorySize) ++ littleEndian 4 1

/-- What follows the central directory. -/
def tail (entries directorySize directoryStart : Nat) : List UInt8 :=
  (if full16 < entries || full32 < max directorySize directoryStart then
    largeTail entries directorySize directoryStart else [])
    ++ littleEndian 4 endSignature ++ littleEndian 2 0 ++ littleEndian 2 0
    ++ littleEndian 2 (min entries full16) ++ littleEndian 2 (min entries full16)
    ++ littleEndian 4 (min directorySize full32) ++ littleEndian 4 (min directoryStart full32)
    ++ littleEndian 2 0

/-- The bytes of an archive with the given entries. -/
def encode (entries : List Packed) : ByteArray :=
  let body := entries.foldl Body.add ⟨ByteArray.empty, ByteArray.empty⟩
  body.contents ++ body.directory
    ++ ofOctets (tail entries.length body.directory.size body.contents.size)

end ClassNaming.Archive
