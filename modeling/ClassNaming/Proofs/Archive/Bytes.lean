import Mathlib.Algebra.Group.Nat.Defs
import Mathlib.Data.List.Infix
import ClassNaming.Archive.Bytes

/-!
# Octets within bytes

The records of an archive are written as lists of octets, one behind the other, and read as numbers
at places of a byte array.  `Lies` connects the two: what is known of a byte array is which octets
lie where in it, and what is read at a place follows from the octets that lie there.

## Main Definitions

* `Lies` - octets that lie in a byte array at a place

## Main Results

* `Lies.field` - a number that was written is read
* `Lies.slice` - octets that were written are cut out
-/

namespace ClassNaming.Archive

variable {bytes bytes' : ByteArray} {octets octets' front back : List UInt8}
  {place width n size : Nat}

/-! ### Byte arrays as lists -/

@[simp] theorem toList_ofOctets (octets : List UInt8) : (ofOctets octets).data.toList = octets :=
  rfl

@[simp] theorem ofOctets_toList (bytes : ByteArray) : ofOctets bytes.data.toList = bytes := rfl

/-- Bytes are appended as lists. -/
theorem toList_append (bytes bytes' : ByteArray) :
    (bytes ++ bytes').data.toList = bytes.data.toList ++ bytes'.data.toList := by
  rw [ByteArray.data_append, Array.toList_append]

theorem length_toList (bytes : ByteArray) : bytes.data.toList.length = bytes.size := rfl

theorem size_ofOctets (octets : List UInt8) : (ofOctets octets).size = octets.length := rfl

/-- Bytes are equal if their lists are. -/
theorem ext_toList (same : bytes.data.toList = bytes'.data.toList) : bytes = bytes' :=
  ByteArray.ext (Array.toList_inj.mp same)

/-- Behind the end there are only zeros. -/
theorem byteAt_eq (bytes : ByteArray) (place : Nat) :
    byteAt bytes place = bytes.data.toList.getD place 0 := by
  unfold byteAt
  split
  case isTrue inside =>
    rw [ByteArray.getElem_eq_getElem_data, List.getD_eq_getElem?_getD, Array.getElem?_toList,
      Array.getElem?_eq_getElem inside]
    rfl
  case isFalse beyond =>
    have short : bytes.data.toList.length ≤ place := Nat.le_of_not_lt beyond
    rw [List.getD_eq_getElem?_getD, List.getElem?_eq_none short]
    rfl

/-- What is cut out is what stands there, as far as there is anything. -/
theorem toList_slice (bytes : ByteArray) (place size : Nat) :
    (slice bytes place size).data.toList = (bytes.data.toList.drop place).take size := by
  have length := length_toList bytes
  unfold slice
  rw [ByteArray.data_extract, Array.toList_extract, List.extract_eq_take_drop]
  rcases Nat.le_total place bytes.size with inside | beyond
  · rw [Nat.min_eq_left inside]
    rcases Nat.le_total (place + size) bytes.size with whole | cut
    · rw [Nat.min_eq_left whole, Nat.add_sub_cancel_left]
    · rw [Nat.min_eq_right cut, List.take_of_length_le (by simp), List.take_of_length_le]
      simp only [List.length_drop]
      omega
  · have none : bytes.data.toList.drop bytes.size = [] := List.drop_of_length_le length.le
    have none' : bytes.data.toList.drop place = [] :=
      List.drop_of_length_le (length.le.trans beyond)
    rw [Nat.min_eq_right beyond, none, none', List.take_nil, List.take_nil]

/-! ### Numbers -/

@[simp] theorem length_littleEndian (width n : Nat) : (littleEndian width n).length = width := by
  induction width generalizing n with
  | zero => rfl
  | succ width ih => rw [littleEndian, List.length_cons, ih]

/-- A number of so many bytes is below a power of 256. -/
theorem numberAt_lt (bytes : ByteArray) (place width : Nat) :
    numberAt bytes place width < 0x100 ^ width := by
  induction width generalizing place with
  | zero => exact Nat.one_pos
  | succ width ih =>
    have low := (byteAt bytes place).toNat_lt
    have high := ih (place + 1)
    rw [numberAt, Nat.pow_succ]
    omega

/-! ### Octets at a place -/

/-- Octets that lie in a byte array at a place. -/
def Lies (bytes : ByteArray) (place : Nat) (octets : List UInt8) : Prop :=
  ∃ front back, bytes.data.toList = front ++ octets ++ back ∧ front.length = place

namespace Lies

/-- A part of the bytes lies behind what is in front of it. -/
theorem mk (whole : bytes.data.toList = front ++ octets ++ back) :
    Lies bytes front.length octets := ⟨front, back, whole, rfl⟩

/-- What lies in the bytes ends in them. -/
theorem bound (lies : Lies bytes place octets) : place + octets.length ≤ bytes.size := by
  obtain ⟨front, back, whole, rfl⟩ := lies
  rw [← length_toList, whole]
  simp

/-- The first of two parts lies where both do. -/
theorem left (lies : Lies bytes place (octets ++ octets')) : Lies bytes place octets := by
  obtain ⟨front, back, whole, rfl⟩ := lies
  exact ⟨front, octets' ++ back, by simp [whole], rfl⟩

/-- The second one lies behind it. -/
theorem right (lies : Lies bytes place (octets ++ octets')) :
    Lies bytes (place + octets.length) octets' := by
  obtain ⟨front, back, whole, rfl⟩ := lies
  exact ⟨front ++ octets, back, by simp [whole], by simp⟩

theorem tail {octet : UInt8} (lies : Lies bytes place (octet :: octets)) :
    Lies bytes (place + 1) octets := by
  rw [← List.singleton_append] at lies
  exact lies.right

/-- What lies at a place begins what is left from there. -/
theorem drop_eq (lies : Lies bytes place octets) :
    ∃ back, bytes.data.toList.drop place = octets ++ back := by
  obtain ⟨front, back, whole, rfl⟩ := lies
  exact ⟨back, by rw [whole, List.append_assoc, List.drop_left]⟩

/-- Octets are cut out where they lie. -/
theorem slice (lies : Lies bytes place octets) :
    Archive.slice bytes place octets.length = ofOctets octets := by
  obtain ⟨back, rest⟩ := lies.drop_eq
  apply ext_toList
  rw [toList_slice, rest, List.take_left, toList_ofOctets]

/-- The first octet that lies at a place is the byte there. -/
theorem byte {octet : UInt8} (lies : Lies bytes place (octet :: octets)) :
    byteAt bytes place = octet := by
  obtain ⟨front, back, whole, rfl⟩ := lies
  rw [byteAt_eq, whole]
  simp

/-- The low bytes of a number are read, whatever the number was. -/
theorem number_mod (lies : Lies bytes place (littleEndian width n)) :
    numberAt bytes place width = n % 0x100 ^ width := by
  induction width generalizing place n with
  | zero => exact (Nat.mod_one n).symm
  | succ width ih =>
    rw [littleEndian] at lies
    have low : (UInt8.ofNat (n % 0x100)).toNat = n % 0x100 := by
      rw [UInt8.toNat_ofNat']
      exact Nat.mod_mod _ _
    rw [numberAt, lies.byte, low, ih lies.tail, Nat.pow_succ', Nat.mod_mul]

/-- A field of a record, with the record behind it. -/
theorem field_mod (lies : Lies bytes place (littleEndian width n ++ octets)) :
    numberAt bytes place width = n % 0x100 ^ width ∧ Lies bytes (place + width) octets := by
  have behind := lies.right
  rw [length_littleEndian] at behind
  exact ⟨lies.left.number_mod, behind⟩

/-- **A number that was written is read**, if it fits its field. -/
theorem field (lies : Lies bytes place (littleEndian width n ++ octets))
    (small : n < 0x100 ^ width) :
    numberAt bytes place width = n ∧ Lies bytes (place + width) octets := by
  obtain ⟨number, behind⟩ := lies.field_mod
  exact ⟨number.trans (Nat.mod_eq_of_lt small), behind⟩

end Lies

end ClassNaming.Archive
