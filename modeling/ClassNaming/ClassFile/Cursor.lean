import ClassNaming.ClassFile.Error

/-!
# Reading and writing big-endian fields

A reader is a function from a cursor to a value and the cursor behind it.  The cursor knows how many
bytes have been read, since an error tells where the data ended.  A writer is a list of bytes.

## Main Definitions

* `Cursor` - the bytes that are left, and how many came before
* `Reader` - a computation that reads from a cursor
* `readBytes`, `readU8`, `readU16`, `readU32`, `readU64` - fields of a fixed size
* `readCounted` - a number of values, one after the other
* `Reader.readAll` - a reader run on a whole byte sequence, which it must use up
* `writeU16`, `writeU32`, `writeU64` - the bytes of a number
-/

namespace ClassNaming

/-- A place in a byte sequence. -/
structure Cursor where
  /-- How many bytes came before. -/
  offset : Nat
  /-- The bytes from here on. -/
  rest : List UInt8
  deriving Repr, DecidableEq

/-- A computation that reads from a cursor. -/
abbrev Reader := StateT Cursor (Except ClassFileError)

/-- Splits off the first `count` bytes, if there are so many; `taken` holds the bytes so far, in
reverse. -/
def splitBytes? (taken : List UInt8) : Nat → List UInt8 → Option (List UInt8 × List UInt8)
  | 0, rest => some (taken.reverse, rest)
  | _ + 1, [] => none
  | count + 1, byte :: rest => splitBytes? (byte :: taken) count rest

/-- Reads a field of `count` bytes. -/
def readBytes (count : Nat) : Reader (List UInt8) := fun cursor =>
  match splitBytes? [] count cursor.rest with
  | some (bytes, rest) => .ok (bytes, ⟨cursor.offset + count, rest⟩)
  | none => .error (.unexpectedEnd cursor.offset count)

/-- The number that bytes stand for, most significant first. -/
def bigEndian (bytes : List UInt8) : Nat :=
  bytes.foldl (fun n byte => n * 0x100 + byte.toNat) 0

/-- Reads a byte. -/
def readU8 : Reader UInt8 := do
  return UInt8.ofNat (bigEndian (← readBytes 1))

/-- Reads a 16-bit number. -/
def readU16 : Reader UInt16 := do
  return UInt16.ofNat (bigEndian (← readBytes 2))

/-- Reads a 32-bit number. -/
def readU32 : Reader UInt32 := do
  return UInt32.ofNat (bigEndian (← readBytes 4))

/-- Reads a 64-bit number, as two halves of 32 bits. -/
def readU64 : Reader UInt64 := do
  let high ← readU32
  let low ← readU32
  return UInt64.ofNat (high.toNat * 0x100000000 + low.toNat)

/-- Reads so many more values; `done` holds the values so far, in reverse. -/
def readMore {α : Type} (read : Reader α) (done : List α) : Nat → Reader (List α)
  | 0 => return done.reverse
  | count + 1 => do
    let value ← read
    readMore read (value :: done) count

/-- Reads so many values. -/
def readMany {α : Type} (read : Reader α) (count : Nat) : Reader (List α) :=
  readMore read [] count

/-- Reads a 16-bit count and so many values. -/
def readCounted {α : Type} (read : Reader α) : Reader (List α) := do
  let count ← readU16
  readMany read count.toNat

/-- Reads a whole byte sequence; what is left over is an error. -/
def Reader.readAll {α : Type} (read : Reader α) (bytes : List UInt8) :
    Except ClassFileError α := do
  let (value, cursor) ← StateT.run read ⟨0, bytes⟩
  match cursor.rest with
  | [] => return value
  | rest => throw (.trailingBytes rest.length)

/-- The bytes of a 16-bit number. -/
def writeU16 (n : UInt16) : List UInt8 :=
  [(n >>> 8).toUInt8, n.toUInt8]

/-- The bytes of a 32-bit number. -/
def writeU32 (n : UInt32) : List UInt8 :=
  [(n >>> 24).toUInt8, (n >>> 16).toUInt8, (n >>> 8).toUInt8, n.toUInt8]

/-- The bytes of a 64-bit number. -/
def writeU64 (n : UInt64) : List UInt8 :=
  writeU32 (n >>> 32).toUInt32 ++ writeU32 n.toUInt32

/-- The bytes of a count, which keeps its low 16 bits, and of so many values. -/
def writeCounted {α : Type} (write : α → List UInt8) (values : List α) : List UInt8 :=
  writeU16 (UInt16.ofNat values.length) ++ values.flatMap write

end ClassNaming
