import ClassNaming.ClassFile.Constant
import ClassNaming.ClassFile.ModifiedUtf8

/-!
# Constant pools

A pool is a sequence of slots, numbered from one.  Its count field is the number of slots and one
more, so a pool that grows must stay below 65535 slots.  The reader of a class file is not bound by
that: a wide constant at the end may overhang the declared count.

## Main Definitions

* `ConstantPool` - the slots
* `ConstantPool.get?`, `ConstantPool.text` - the constant and the text at an index
* `ConstantPool.push` - a constant appended
* `ConstantPool.intern` - a text found, or appended
* `ConstantPool.write`, `ConstantPool.read` - the pool as part of a class file
-/

namespace ClassNaming

/-- The constants of a class file. -/
structure ConstantPool where
  slots : Array Constant
  deriving Repr, DecidableEq

namespace ConstantPool

/-- The pool without constants. -/
def empty : ConstantPool := ⟨#[]⟩

/-- How many slots a pool may grow to. -/
def maxSlots : Nat := 65534

/-- The count field: one more than there are slots, in 16 bits. -/
def count (pool : ConstantPool) : UInt16 := UInt16.ofNat (pool.slots.size + 1)

/-- The constant at an index. -/
def get? (pool : ConstantPool) (index : UInt16) : Option Constant :=
  match index.toNat with
  | 0 => none
  | slot + 1 => pool.slots[slot]?

/-- The constants with their indices, without the second slots of wide ones. -/
def entries (pool : ConstantPool) : List (UInt16 × Constant) :=
  (pool.slots.toList.zipIdx 1).filterMap fun (constant, index) =>
    if constant = .unusable then none else some (UInt16.ofNat index, constant)

/-- The bytes of the text constant at an index. -/
def textBytes (pool : ConstantPool) (index : UInt16) : Except ClassFileError (List UInt8) :=
  match pool.get? index with
  | some (.utf8 bytes) => .ok bytes
  | _ => .error (.noText index)

/-- Whether bytes are ASCII without NUL, which every encoding of texts leaves as it is. -/
def isPlain (bytes : List UInt8) : Bool :=
  bytes.all fun byte => 1 ≤ byte && byte < 0x80

/-- The text at an index.  Plain bytes are taken as they are, all others are decoded. -/
def text (pool : ConstantPool) (index : UInt16) : Except ClassFileError String :=
  match pool.textBytes index with
  | .error e => .error e
  | .ok bytes =>
    if isPlain bytes then .ok (String.ofList (bytes.map fun byte => Char.ofNat byte.toNat))
    else
      match ModifiedUtf8.decode? bytes with
      | some text => .ok text
      | none => .error (.malformedText index)

/-- Whether the text at an index is the expected one. -/
def hasText (pool : ConstantPool) (index : UInt16) (expected : String) : Bool :=
  match pool.text index with
  | .ok text => text == expected
  | .error _ => false

/-- Whether a constant can be appended. -/
def hasRoom (pool : ConstantPool) (constant : Constant) : Bool :=
  pool.slots.size + (if constant.isWide then 2 else 1) ≤ maxSlots

/-- Appends a constant, with its second slot if it is wide.  Also gives its index. -/
def push (pool : ConstantPool) (constant : Constant) :
    Except ClassFileError (UInt16 × ConstantPool) :=
  if !pool.hasRoom constant then .error .poolFull
  else
    let slots := pool.slots.push constant
    let index := UInt16.ofNat slots.size
    if constant.isWide then .ok (index, ⟨slots.push .unusable⟩) else .ok (index, ⟨slots⟩)

/-- The slot of the first text constant with the given bytes. -/
def findBytes? (pool : ConstantPool) (bytes : List UInt8) : Option Nat :=
  pool.slots.findIdx? fun constant =>
    match constant with
    | .utf8 held => held == bytes
    | _ => false

/-- The index of a constant with the given text, which is appended if there is none. -/
def intern (pool : ConstantPool) (text : String) :
    Except ClassFileError (UInt16 × ConstantPool) :=
  let bytes := ModifiedUtf8.encode text
  if bytes.length > 65535 then .error (.textTooLong bytes.length)
  else
    match pool.findBytes? bytes with
    | some slot => .ok (UInt16.ofNat (slot + 1), pool)
    | none => pool.push (.utf8 bytes)

/-- The bytes of a pool: its count and its constants. -/
def write (pool : ConstantPool) : List UInt8 :=
  writeU16 pool.count ++ pool.slots.toList.flatMap Constant.write

/-- Reads constants until the slot before index `count` is filled.  A wide constant may fill one
slot more.  `fuel` bounds the number of constants. -/
def readSlots (count : Nat) : Nat → Array Constant → Reader (Array Constant)
  | 0, slots => return slots
  | fuel + 1, slots =>
    let index := slots.size + 1
    if index < count then do
      let constant ← Constant.read (UInt16.ofNat index)
      let slots := slots.push constant
      readSlots count fuel (if constant.isWide then slots.push .unusable else slots)
    else return slots

/-- Reads a count and the constants that it announces. -/
def read : Reader ConstantPool := do
  let count ← readU16
  return ⟨← readSlots count.toNat count.toNat #[]⟩

end ConstantPool

end ClassNaming
