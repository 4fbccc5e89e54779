/-!
# Why a class file is refused

## Main Definitions

* `ClassFileError` - what is wrong with the bytes of a class file, or with a constant to be added
* `ClassFileError.message` - the wording of all of them
-/

namespace ClassNaming

/-- What is wrong with a class file. -/
inductive ClassFileError where
  /-- The file starts with another number than every class file. -/
  | badMagic (magic : UInt32)
  /-- A field of `wanted` bytes starts at `offset`, and the data ends within it. -/
  | unexpectedEnd (offset wanted : Nat)
  /-- A constant starts with a tag that is none. -/
  | unknownConstantTag (tag : UInt8) (index : UInt16)
  /-- The index leads to no text constant. -/
  | noText (index : UInt16)
  /-- The bytes of a text constant are no modified UTF-8. -/
  | malformedText (index : UInt16)
  /-- A text takes more bytes than a constant can hold. -/
  | textTooLong (size : Nat)
  /-- The constant pool has no slot left. -/
  | poolFull
  /-- An annotation value starts with a tag that is none. -/
  | unknownElementTag (tag : UInt8)
  /-- So many bytes follow behind the structure. -/
  | trailingBytes (count : Nat)
  deriving Repr, DecidableEq

/-- A number in lower-case hexadecimal with the given number of digits. -/
def paddedHex (width n : Nat) : String :=
  let digits := Nat.toDigits 16 n
  "0x" ++ String.ofList (List.replicate (width - digits.length) '0' ++ digits)

/-- The wording of a class file error. -/
def ClassFileError.message : ClassFileError → String
  | .badMagic magic => "not a class file (magic " ++ paddedHex 8 magic.toNat ++ ")"
  | .unexpectedEnd offset wanted =>
    "unexpected end of data at offset " ++ toString offset ++ " (wanted " ++ toString wanted
      ++ " more bytes)"
  | .unknownConstantTag tag index =>
    "unknown constant pool tag " ++ toString tag.toNat ++ " at index " ++ toString index.toNat
  | .noText index =>
    "constant pool index " ++ toString index.toNat ++ " does not refer to a Utf8 constant"
  | .malformedText index => "malformed modified UTF-8 in constant " ++ toString index.toNat
  | .textTooLong size =>
    "string of " ++ toString size ++ " bytes does not fit in a Utf8 constant"
  | .poolFull => "constant pool is full"
  | .unknownElementTag tag => "unknown annotation element tag " ++ paddedHex 2 tag.toNat
  | .trailingBytes count => toString count ++ " trailing bytes after class structure"

end ClassNaming
