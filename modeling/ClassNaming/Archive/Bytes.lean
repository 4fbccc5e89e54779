/-!
# Little-endian numbers in byte arrays

The records of an archive hold little-endian numbers at fixed places.  Whoever reads one makes sure
first that the record lies within the data; a byte beyond it counts as zero.

## Main Definitions

* `byteAt`, `numberAt` - a byte, and a number of several bytes
* `slice` - the bytes from a place on, as far as there are any
* `littleEndian` - the bytes of a number
-/

namespace ClassNaming.Archive

/-- The byte at a place, zero beyond the end. -/
def byteAt (bytes : ByteArray) (place : Nat) : UInt8 :=
  if h : place < bytes.size then bytes[place] else 0

/-- The number of `width` bytes that starts at a place. -/
def numberAt (bytes : ByteArray) (place : Nat) : Nat → Nat
  | 0 => 0
  | width + 1 => (byteAt bytes place).toNat + 0x100 * numberAt bytes (place + 1) width

/-- At most `size` bytes from a place on. -/
def slice (bytes : ByteArray) (place size : Nat) : ByteArray :=
  let start := min place bytes.size
  bytes.extract start (min (start + size) bytes.size)

/-- The low `width` bytes of a number. -/
def littleEndian : Nat → Nat → List UInt8
  | 0, _ => []
  | width + 1, n => UInt8.ofNat (n % 0x100) :: littleEndian width (n / 0x100)

/-- A byte array of the given bytes. -/
def ofOctets (octets : List UInt8) : ByteArray := ⟨octets.toArray⟩

end ClassNaming.Archive
