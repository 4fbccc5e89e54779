import ClassNaming.ClassFile.Cursor

/-!
# Constants

A constant starts with a one-byte tag, which tells what follows.  The bytes of a text and the bits
of a number are kept as they are, so that a constant is written exactly as it was read.

`long` and `double` constants are *wide*: they take two slots of the pool, of which the second is
`unusable` and written as nothing.

## Main Definitions

* `Constant` - one slot of a constant pool
* `Constant.write` - its bytes
* `Constant.read` - the constant at a cursor
-/

namespace ClassNaming

/-- One slot of a constant pool. -/
inductive Constant where
  | utf8 (bytes : List UInt8)
  | integer (bits : UInt32)
  | float (bits : UInt32)
  | long (bits : UInt64)
  | double (bits : UInt64)
  | classRef (name : UInt16)
  | string (text : UInt16)
  | fieldRef (owner nameAndType : UInt16)
  | methodRef (owner nameAndType : UInt16)
  | interfaceMethodRef (owner nameAndType : UInt16)
  | nameAndType (name descriptor : UInt16)
  | methodHandle (kind : UInt8) (reference : UInt16)
  | methodType (descriptor : UInt16)
  | dynamic (bootstrap nameAndType : UInt16)
  | invokeDynamic (bootstrap nameAndType : UInt16)
  | module (name : UInt16)
  | package (name : UInt16)
  /-- The second slot of a wide constant. -/
  | unusable
  deriving Repr, DecidableEq

namespace Constant

/-- Whether a constant takes two slots. -/
def isWide : Constant → Bool
  | long _ => true
  | double _ => true
  | _ => false

/-- The bytes of a constant. -/
def write : Constant → List UInt8
  | utf8 bytes => 1 :: writeU16 (UInt16.ofNat bytes.length) ++ bytes
  | integer bits => 3 :: writeU32 bits
  | float bits => 4 :: writeU32 bits
  | long bits => 5 :: writeU64 bits
  | double bits => 6 :: writeU64 bits
  | classRef name => 7 :: writeU16 name
  | string text => 8 :: writeU16 text
  | fieldRef owner member => 9 :: writeU16 owner ++ writeU16 member
  | methodRef owner member => 10 :: writeU16 owner ++ writeU16 member
  | interfaceMethodRef owner member => 11 :: writeU16 owner ++ writeU16 member
  | nameAndType name descriptor => 12 :: writeU16 name ++ writeU16 descriptor
  | methodHandle kind reference => 15 :: kind :: writeU16 reference
  | methodType descriptor => 16 :: writeU16 descriptor
  | dynamic bootstrap member => 17 :: writeU16 bootstrap ++ writeU16 member
  | invokeDynamic bootstrap member => 18 :: writeU16 bootstrap ++ writeU16 member
  | module name => 19 :: writeU16 name
  | package name => 20 :: writeU16 name
  | unusable => []

/-- Reads two 16-bit numbers. -/
def readPair (make : UInt16 → UInt16 → Constant) : Reader Constant := do
  let first ← readU16
  let second ← readU16
  return make first second

/-- Reads what follows the tag of a constant, which is to be found at `index`. -/
def readTagged (index : UInt16) (tag : UInt8) : Reader Constant :=
  match tag with
  | 1 => do
    let size ← readU16
    utf8 <$> readBytes size.toNat
  | 3 => integer <$> readU32
  | 4 => float <$> readU32
  | 5 => long <$> readU64
  | 6 => double <$> readU64
  | 7 => classRef <$> readU16
  | 8 => string <$> readU16
  | 9 => readPair fieldRef
  | 10 => readPair methodRef
  | 11 => readPair interfaceMethodRef
  | 12 => readPair nameAndType
  | 15 => do
    let kind ← readU8
    methodHandle kind <$> readU16
  | 16 => methodType <$> readU16
  | 17 => readPair dynamic
  | 18 => readPair invokeDynamic
  | 19 => module <$> readU16
  | 20 => package <$> readU16
  | _ => throw (.unknownConstantTag tag index)

/-- Reads the constant that is to be found at `index`. -/
def read (index : UInt16) : Reader Constant := do
  let tag ← readU8
  readTagged index tag

end Constant

end ClassNaming
