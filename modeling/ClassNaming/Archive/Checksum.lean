/-!
# The checksum of a content

Archives declare a cyclic redundancy check of 32 bits for each content: the remainder of a division
of polynomials over the field of two elements, taken bit by bit from the low end, with all bits of
the start and of the result inverted.

## Main Definitions

* `remainder` - what a byte adds to the remainder
* `checksum` - the check of a content
-/

namespace ClassNaming.Archive

/-- The polynomial, with its low coefficients in the high bits. -/
def polynomial : UInt32 := 0xEDB88320

/-- The division carried on by so many bits. -/
def divideBits : Nat → UInt32 → UInt32
  | 0, n => n
  | bits + 1, n =>
    divideBits bits (if n &&& 1 = 1 then (n >>> 1) ^^^ polynomial else n >>> 1)

/-- The remainder of each single byte. -/
def remainders : Array UInt32 :=
  (Array.range 256).map fun n => divideBits 8 (UInt32.ofNat n)

/-- The remainder after one more byte. -/
def remainder (n : UInt32) (byte : UInt8) : UInt32 :=
  remainders.getD ((n ^^^ byte.toUInt32) &&& 0xFF).toNat 0 ^^^ (n >>> 8)

/-- The check of a content. -/
def checksum (content : ByteArray) : UInt32 :=
  content.foldl remainder 0xFFFFFFFF ^^^ 0xFFFFFFFF

end ClassNaming.Archive
