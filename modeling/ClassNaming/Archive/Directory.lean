import ClassNaming.Archive.Bytes
import ClassNaming.Archive.CodePage
import ClassNaming.Archive.Error
import ClassNaming.Text.Utf8

/-!
# The central directory

An archive is read from its end.  The *end record* tells where the central directory lies and how
many entries it has; an archive beyond the limits of that record has another one, of 64-bit numbers,
which a *locator* directly before the end record announces.  The *central directory* holds a header
for each entry, and the header tells everything about the entry but where its content starts.

Data may stand before an archive, so that all its places are too small.  By how much shows where the
end record was found.

The last end record of the file counts, even if its comment does not fit behind it.

## Main Definitions

* `Header` - what the central directory tells about an entry
* `Archive` - the bytes of an archive with its headers
* `Archive.ofBytes` - the archive of a byte array
-/

namespace ClassNaming

namespace Archive

/-- What the central directory tells about an entry. -/
structure Header where
  name : String
  isEncrypted : Bool
  method : Nat
  time : UInt16
  date : UInt16
  crc : UInt32
  compressedSize : Nat
  size : Nat
  host : Nat
  attributes : UInt32
  /-- The place of the local header. -/
  start : Nat
  deriving Repr, DecidableEq

/-- What the end record tells. -/
structure EndRecord where
  /-- The place of the record. -/
  place : Nat
  disk : Nat
  directoryDisk : Nat
  entriesHere : Nat
  entries : Nat
  directorySize : Nat
  directoryStart : Nat
  commentSize : Nat
  deriving Repr, DecidableEq

/-- Where the central directory is, and what is to be added to all places. -/
structure Layout where
  shift : Nat
  directory : Nat
  entries : Nat
  deriving Repr, DecidableEq

/-- A 16-bit field that refers to a 64-bit one. -/
def full16 : Nat := 0xFFFF

/-- A 32-bit field that refers to a 64-bit one. -/
def full32 : Nat := 0xFFFFFFFF

/-- The limit of 64-bit places. -/
def limit64 : Nat := 0x10000000000000000

/-! ### End records -/

/-- The signature of an end record. -/
def endSignature : Nat := 0x06054B50

/-- The size of an end record without its comment. -/
def endSize : Nat := 22

/-- The last place from `place` downwards at which an end record starts; at most `left` more places
are tried. -/
def findEnd? (bytes : ByteArray) (place : Nat) : Nat → Option Nat
  | 0 => if numberAt bytes place 4 = endSignature then some place else none
  | left + 1 =>
    if numberAt bytes place 4 = endSignature then some place
    else findEnd? bytes (place - 1) left

/-- Reads the last end record. -/
def readEnd (bytes : ByteArray) : Except ArchiveError EndRecord :=
  if bytes.size < endSize then .error (.invalid .tooShort)
  else
    let last := bytes.size - endSize
    match findEnd? bytes last (min last full16) with
    | none => .error (.invalid .noEndRecord)
    | some place =>
      let commentSize := numberAt bytes (place + 20) 2
      if place + endSize + commentSize > bytes.size then .error (.io .shortData)
      else .ok
        { place
          disk := numberAt bytes (place + 4) 2
          directoryDisk := numberAt bytes (place + 6) 2
          entriesHere := numberAt bytes (place + 8) 2
          entries := numberAt bytes (place + 10) 2
          directorySize := numberAt bytes (place + 12) 4
          directoryStart := numberAt bytes (place + 16) 4
          commentSize }

/-- Whether a field of the record refers to the 64-bit one. -/
def EndRecord.isSaturated (e : EndRecord) : Bool :=
  e.disk == full16 || e.directoryDisk == full16 || e.entriesHere == full16
    || e.entries == full16 || e.directorySize == full32 || e.directoryStart == full32

/-- The signature of a locator. -/
def locatorSignature : Nat := 0x07064B50

/-- The size of a locator. -/
def locatorSize : Nat := 20

/-- The place of the locator that belongs to an end record. -/
def locator? (bytes : ByteArray) (e : EndRecord) : Option Nat :=
  let behind := locatorSize + endSize + e.commentSize
  if behind ≤ bytes.size && numberAt bytes (bytes.size - behind) 4 == locatorSignature then
    some (bytes.size - behind)
  else none

/-- The signature of a 64-bit end record. -/
def largeEndSignature : Nat := 0x06064B50

/-- The first place from `place` on at which a 64-bit end record starts; so many places are
tried. -/
def findLargeEnd? (bytes : ByteArray) (place : Nat) : Nat → Option Nat
  | 0 => none
  | tries + 1 =>
    if numberAt bytes place 4 = largeEndSignature then some place
    else findLargeEnd? bytes (place + 1) tries

/-- The layout that the end record alone tells. -/
def plainLayout (e : EndRecord) : Except ArchiveError Layout :=
  if e.place < e.directorySize + e.directoryStart then
    .error (.invalid .badDirectoryBounds)
  else
    let shift := e.place - e.directorySize - e.directoryStart
    .ok { shift, directory := e.directoryStart + shift, entries := e.entriesHere }

/-- The least size of a 64-bit end record with its locator. -/
def largeTailSize : Nat := 60

/-- The layout that the 64-bit end record tells. -/
def largeLayout (bytes : ByteArray) (e : EndRecord) (locator : Nat) :
    Except ArchiveError Layout :=
  if !e.isSaturated && e.disk != numberAt bytes (locator + 4) 4 then
    .error (.unsupported .multipleDisks)
  else if e.place < largeTailSize then .error (.invalid .noRoomForLargeEndRecord)
  else
    let nominal := numberAt bytes (locator + 8) 8
    match findLargeEnd? bytes nominal (e.place - largeTailSize + 1 - nominal) with
    | none => .error (.invalid .noLargeEndRecord)
    | some place =>
      if place + 56 > bytes.size then .error (.io .shortData)
      else if numberAt bytes (place + 16) 4 ≠ numberAt bytes (place + 20) 4 then
        .error (.unsupported .multipleDisks)
      else
        let shift := place - nominal
        let directory := numberAt bytes (place + 48) 8 + shift
        if directory ≥ limit64 then .error (.invalid .badDirectoryBounds)
        else .ok { shift, directory, entries := numberAt bytes (place + 32) 8 }

/-- Finds the central directory. -/
def readLayout (bytes : ByteArray) : Except ArchiveError Layout := do
  let e ← readEnd bytes
  if !e.isSaturated && e.disk != e.directoryDisk then
    throw (.unsupported .multipleDisks)
  match locator? bytes e with
  | none => plainLayout e
  | some locator => largeLayout bytes e locator

/-! ### Extra fields -/

/-- A header with what its extra field has told so far. -/
structure Extended where
  header : Header
  /-- Whether the encryption of the content was described. -/
  isDescribed : Bool

/-- The method of contents that an encryption field describes. -/
def encryptedMethod : Nat := 99

/-- Takes a 64-bit number from an extra field where the header refers to it.  The place moves behind
it; it stays where there is none, and there is no place if the field ends too early. -/
def wideNumber (field : ByteArray) (given : Nat) (place : Nat) : Option (Nat × Nat) :=
  if given ≠ full32 then some (given, place)
  else if place + 8 ≤ field.size then some (numberAt field place 8, place + 8)
  else none

/-- Takes the 64-bit sizes and places of an extra field, in this order, and gives the place behind
those taken.  A field that ends too early ends the extra field. -/
def extendSizes (field : ByteArray) (place : Nat) (h : Header) : Header × Option Nat :=
  match wideNumber field h.size place with
  | none => (h, none)
  | some (size, place) =>
    let h := { h with size }
    match wideNumber field h.compressedSize place with
    | none => (h, none)
    | some (compressedSize, place) =>
      let h := { h with compressedSize }
      match wideNumber field h.start place with
      | none => (h, none)
      | some (start, place) => ({ h with start }, some place)

/-- Takes the description of an encryption, which starts at `place`. -/
def describeEncryption (field : ByteArray) (place size : Nat) (x : Extended) :
    Except ArchiveError (Option Extended) :=
  if size ≠ 7 then .error (.unsupported .encryptionFieldSize)
  else if place + 7 > field.size then .ok none
  else if numberAt field (place + 2) 2 ≠ 0x4541 then
    .error (.invalid .badEncryptionVendor)
  else
    let version := numberAt field place 2
    let strength := numberAt field (place + 4) 1
    if version ≠ 1 ∧ version ≠ 2 then .error (.invalid .badEncryptionVersion)
    else if strength < 1 ∨ 3 < strength then .error (.invalid .badEncryptionStrength)
    else .ok (some ⟨{ x.header with method := numberAt field (place + 5) 2 }, true⟩)

/-- Reads the parts of an extra field from `place` on.  The field simply ends where a part is cut
short.  Each part takes at least four bytes. -/
def extendHeader (field : ByteArray) : Nat → Nat → Extended → Except ArchiveError Extended
  | 0, _, x => .ok x
  | fuel + 1, place, x =>
    if place + 4 > field.size then .ok x
    else
      let size := numberAt field (place + 2) 2
      let start := place + 4
      match numberAt field place 2 with
      | 0x0001 =>
        match extendSizes field start x.header with
        | (header, none) => .ok { x with header }
        | (header, some stop) =>
          extendHeader field fuel (max stop (start + size)) { x with header }
      | 0x9901 =>
        match describeEncryption field start size x with
        | .error e => .error e
        | .ok none => .ok x
        | .ok (some x) => extendHeader field fuel (start + 7 + size) x
      | _ => extendHeader field fuel (start + size) x

/-! ### Headers -/

/-- The signature of a header of the central directory. -/
def centralSignature : Nat := 0x02014B50

/-- The size of such a header without its name, extra field and comment. -/
def centralSize : Nat := 46

/-- Reads the header at a place, and gives the place behind it. -/
def readHeader (bytes : ByteArray) (shift place : Nat) : Except ArchiveError (Header × Nat) := do
  if place + 4 > bytes.size then throw (.io .shortData)
  if numberAt bytes place 4 ≠ centralSignature then throw (.invalid .badCentralHeader)
  if place + centralSize > bytes.size then throw (.io .shortData)
  let nameSize := numberAt bytes (place + 28) 2
  let extraSize := numberAt bytes (place + 30) 2
  let stop := place + centralSize + nameSize + extraSize + numberAt bytes (place + 32) 2
  if stop > bytes.size then throw (.io .shortData)
  let flags := numberAt bytes (place + 8) 2
  let name := (slice bytes (place + centralSize) nameSize).data.toList
  let header : Header :=
    { name := if flags.testBit 11 then Text.decodeLossy name else decodeCodePage name
      isEncrypted := flags.testBit 0
      method := numberAt bytes (place + 10) 2
      time := UInt16.ofNat (numberAt bytes (place + 12) 2)
      date := UInt16.ofNat (numberAt bytes (place + 14) 2)
      crc := UInt32.ofNat (numberAt bytes (place + 16) 4)
      compressedSize := numberAt bytes (place + 20) 4
      size := numberAt bytes (place + 24) 4
      host := numberAt bytes (place + 5) 1
      attributes := UInt32.ofNat (numberAt bytes (place + 38) 4)
      start := numberAt bytes (place + 42) 4 }
  let field := slice bytes (place + centralSize + nameSize) extraSize
  let extended ← extendHeader field extraSize 0 ⟨header, false⟩
  if extended.header.method = encryptedMethod && !extended.isDescribed then
    throw (.invalid .missingEncryptionField)
  let start := extended.header.start + shift
  if start ≥ limit64 then throw (.invalid .headerTooLarge)
  return ({ extended.header with start }, stop)

/-- Reads so many headers from a place on; `done` holds the headers so far, in reverse. -/
def readHeaders (bytes : ByteArray) (shift : Nat) (done : List Header) (place : Nat) :
    Nat → Except ArchiveError (List Header)
  | 0 => .ok done.reverse
  | count + 1 =>
    match readHeader bytes shift place with
    | .error e => .error e
    | .ok (header, next) => readHeaders bytes shift (header :: done) next count

end Archive

/-- An archive: its bytes, and the headers of its central directory in their order. -/
structure Archive where
  bytes : ByteArray
  headers : List Archive.Header

/-- Reads the central directory of an archive. -/
def Archive.ofBytes (bytes : ByteArray) : Except ArchiveError Archive := do
  let layout ← Archive.readLayout bytes
  let headers ← Archive.readHeaders bytes layout.shift [] layout.directory layout.entries
  return { bytes, headers }

end ClassNaming
