import ClassNaming.ClassFile.ConstantPool

/-!
# Class files

A class file is decoded down to its attributes, whose payloads stay bytes.  What the payload of an
attribute means hangs on its name, which is a text of the constant pool.

## Main Definitions

* `Attribute`, `Member`, `ClassFile` - the parts of a class file
* `ClassFile.parse`, `ClassFile.toBytes` - the codec
* `ClassFile.attributePosition?` - the position of an attribute of the class by its name
-/

namespace ClassNaming

/-- A named payload. -/
structure Attribute where
  name : UInt16
  info : List UInt8
  deriving Repr, DecidableEq

/-- A field or a method. -/
structure Member where
  access : UInt16
  name : UInt16
  descriptor : UInt16
  attributes : List Attribute
  deriving Repr, DecidableEq

/-- A class file. -/
structure ClassFile where
  minor : UInt16
  major : UInt16
  pool : ConstantPool
  access : UInt16
  thisClass : UInt16
  superClass : UInt16
  interfaces : List UInt16
  fields : List Member
  methods : List Member
  attributes : List Attribute
  deriving Repr, DecidableEq

namespace Attribute

/-- The bytes of an attribute. -/
def write (a : Attribute) : List UInt8 :=
  writeU16 a.name ++ writeU32 (UInt32.ofNat a.info.length) ++ a.info

/-- Reads an attribute. -/
def read : Reader Attribute := do
  let name ← readU16
  let size ← readU32
  let info ← readBytes size.toNat
  return { name, info }

end Attribute

namespace Member

/-- The bytes of a member. -/
def write (m : Member) : List UInt8 :=
  writeU16 m.access ++ writeU16 m.name ++ writeU16 m.descriptor
    ++ writeCounted Attribute.write m.attributes

/-- Reads a member. -/
def read : Reader Member := do
  let access ← readU16
  let name ← readU16
  let descriptor ← readU16
  let attributes ← readCounted Attribute.read
  return { access, name, descriptor, attributes }

end Member

namespace ClassFile

/-- The number that every class file starts with. -/
def magic : UInt32 := 0xCAFEBABE

/-- Reads what follows the magic number. -/
def readBody : Reader ClassFile := do
  let minor ← readU16
  let major ← readU16
  let pool ← ConstantPool.read
  let access ← readU16
  let thisClass ← readU16
  let superClass ← readU16
  let interfaces ← readCounted readU16
  let fields ← readCounted Member.read
  let methods ← readCounted Member.read
  let attributes ← readCounted Attribute.read
  return { minor, major, pool, access, thisClass, superClass, interfaces, fields, methods,
           attributes }

/-- Reads a class file. -/
def read : Reader ClassFile := do
  let found ← readU32
  if found = magic then readBody else throw (.badMagic found)

/-- Decodes the bytes of a class file. -/
def parse (bytes : List UInt8) : Except ClassFileError ClassFile :=
  read.readAll bytes

/-- Encodes a class file. -/
def toBytes (c : ClassFile) : List UInt8 :=
  writeU32 magic ++ writeU16 c.minor ++ writeU16 c.major ++ c.pool.write
    ++ writeU16 c.access ++ writeU16 c.thisClass ++ writeU16 c.superClass
    ++ writeCounted writeU16 c.interfaces
    ++ writeCounted Member.write c.fields
    ++ writeCounted Member.write c.methods
    ++ writeCounted Attribute.write c.attributes

/-- The position of the first attribute of the class with the given name. -/
def attributePosition? (c : ClassFile) (name : String) : Option Nat :=
  c.attributes.findIdx? fun a => c.pool.hasText a.name name

end ClassFile

end ClassNaming
