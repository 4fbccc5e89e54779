import ClassNaming.ClassFile.Basic
import ClassNaming.Proofs.ClassFile.ConstantPool

/-!
# Laws of the class file codec

The codec of a class file is put together from those of its fields.  What makes a class file
writable is what the count and length fields ask for; `ClassFile.Writable` collects it.  The number
of slots of the pool is not part of it: a class file that was read may have one slot more than a
count field can announce, and then it cannot be read back.

## Main Definitions

* `ClassFile.Writable` - a class file whose parts fit their count and length fields
* `ClassFile.bytesWith` - the bytes of a class file, with any pool count

## Main Results

* `ClassFile.parse_toBytes_eq` - decoding undoes encoding
* `ClassFile.bytes_of_parse` - a class file that was parsed is writable, and its bytes are the
  parsed ones up to the pool count
-/

namespace ClassNaming

/-- A payload that its length field can announce. -/
def Attribute.Small (a : Attribute) : Prop := a.info.length < 0x100000000

/-- Attributes. -/
theorem Attribute.codec : Codec Attribute.read Attribute.write Attribute.Small where
  decodes a small := by
    have size : (UInt32.ofNat a.info.length).toNat = a.info.length := by
      rw [UInt32.toNat_ofNat']
      exact Nat.mod_eq_of_lt small
    have info := (reads_bytes a.info).bind_pure fun info => { name := a.name, info : Attribute }
    rw [← size] at info
    rw [Attribute.write, List.append_assoc]
    exact (Codec.u16.decodes a.name trivial).bind ((Codec.u32.decodes _ trivial).bind info)
  encodes cursor a behind found := by
    obtain ⟨name, _, readName, found⟩ := Reader.bind_eq_ok.mp found
    obtain ⟨size, _, readSize, found⟩ := Reader.bind_eq_ok.mp found
    obtain ⟨info, _, readInfo, same⟩ := Reader.bind_eq_ok.mp found
    obtain ⟨rfl, rfl⟩ := Reader.pure_eq_ok.mp same
    obtain ⟨length, back, -⟩ := readBytes_eq_ok.mp readInfo
    have bound := size.toNat_lt
    refine ⟨by rw [Attribute.Small, length]; exact bound, ?_⟩
    rw [(Codec.u16.encodes _ _ _ readName).2, (Codec.u32.encodes _ _ _ readSize).2, back,
      Attribute.write, length, UInt32.ofNat_toNat]
    simp only [List.append_assoc]

/-- A member whose attributes fit their fields. -/
def Member.Small (m : Member) : Prop := Counted Attribute.Small m.attributes

/-- Members. -/
theorem Member.codec : Codec Member.read Member.write Member.Small where
  decodes m small := by
    have attributes := (Attribute.codec.counted.decodes m.attributes small).bind_pure
      fun attributes => { m with attributes }
    rw [Member.write, List.append_assoc, List.append_assoc]
    exact (Codec.u16.decodes m.access trivial).bind ((Codec.u16.decodes m.name trivial).bind
      ((Codec.u16.decodes m.descriptor trivial).bind attributes))
  encodes cursor m behind found := by
    obtain ⟨access, _, readAccess, found⟩ := Reader.bind_eq_ok.mp found
    obtain ⟨name, _, readName, found⟩ := Reader.bind_eq_ok.mp found
    obtain ⟨descriptor, _, readDescriptor, found⟩ := Reader.bind_eq_ok.mp found
    obtain ⟨attributes, _, readAttributes, same⟩ := Reader.bind_eq_ok.mp found
    obtain ⟨rfl, rfl⟩ := Reader.pure_eq_ok.mp same
    obtain ⟨small, back⟩ := Attribute.codec.counted.encodes _ _ _ readAttributes
    refine ⟨small, ?_⟩
    rw [(Codec.u16.encodes _ _ _ readAccess).2, (Codec.u16.encodes _ _ _ readName).2,
      (Codec.u16.encodes _ _ _ readDescriptor).2, back, Member.write]
    simp only [List.append_assoc]

namespace ClassFile

variable {c : ClassFile} {bytes : List UInt8}

/-- A class file whose parts fit their count and length fields. -/
structure Writable (c : ClassFile) : Prop where
  pool : c.pool.IsFilled
  interfaces : Counted (fun _ => True) c.interfaces
  fields : Counted Member.Small c.fields
  methods : Counted Member.Small c.methods
  attributes : Counted Attribute.Small c.attributes

/-- The bytes behind the constant pool. -/
def tailBytes (c : ClassFile) : List UInt8 :=
  writeU16 c.access ++ (writeU16 c.thisClass ++ (writeU16 c.superClass ++
    (writeCounted writeU16 c.interfaces ++ (writeCounted Member.write c.fields ++
      (writeCounted Member.write c.methods ++ writeCounted Attribute.write c.attributes)))))

/-- The bytes of a class file, with any pool count. -/
def bytesWith (count : UInt16) (c : ClassFile) : List UInt8 :=
  writeU32 magic ++ (writeU16 c.minor ++ (writeU16 c.major ++
    ((writeU16 count ++ c.pool.slots.toList.flatMap Constant.write) ++ c.tailBytes)))

theorem toBytes_eq (c : ClassFile) : c.toBytes = c.bytesWith c.pool.count := by
  simp only [toBytes, bytesWith, tailBytes, ConstantPool.write, List.append_assoc]

theorem reads_body (writable : c.Writable) (bound : c.pool.slots.size ≤ ConstantPool.maxSlots) :
    Reads readBody c (writeU16 c.minor ++ (writeU16 c.major ++ (c.pool.write ++ c.tailBytes))) := by
  refine (Codec.u16.decodes c.minor trivial).bind ?_
  refine (Codec.u16.decodes c.major trivial).bind ?_
  refine (ConstantPool.reads_write writable.pool bound).bind ?_
  refine (Codec.u16.decodes c.access trivial).bind ?_
  refine (Codec.u16.decodes c.thisClass trivial).bind ?_
  refine (Codec.u16.decodes c.superClass trivial).bind ?_
  refine (Codec.u16.counted.decodes c.interfaces writable.interfaces).bind ?_
  refine (Member.codec.counted.decodes c.fields writable.fields).bind ?_
  refine (Member.codec.counted.decodes c.methods writable.methods).bind ?_
  exact (Attribute.codec.counted.decodes c.attributes writable.attributes).bind_pure
    fun attributes => { c with attributes }

theorem reads_toBytes (writable : c.Writable) (bound : c.pool.slots.size ≤ ConstantPool.maxSlots) :
    Reads ClassFile.read c c.toBytes := by
  rw [toBytes_eq]
  refine (Codec.u32.decodes magic trivial).bind ?_
  rw [if_pos rfl]
  exact reads_body writable bound

/-- **Decoding undoes encoding**, if the pool is small enough for its count. -/
theorem parse_toBytes_eq (writable : c.Writable)
    (bound : c.pool.slots.size ≤ ConstantPool.maxSlots) : parse c.toBytes = .ok c :=
  (reads_toBytes writable bound).readAll

theorem encodes_body {cursor behind : Cursor} (found : readBody cursor = .ok (c, behind)) :
    c.Writable ∧ ∃ count : UInt16, c.pool.AnnouncedBy count.toNat ∧
      cursor.rest = writeU16 c.minor ++ (writeU16 c.major ++
        ((writeU16 count ++ c.pool.slots.toList.flatMap Constant.write) ++ c.tailBytes)) ++
          behind.rest := by
  obtain ⟨minor, _, readMinor, found⟩ := Reader.bind_eq_ok.mp found
  obtain ⟨major, _, readMajor, found⟩ := Reader.bind_eq_ok.mp found
  obtain ⟨pool, _, readPool, found⟩ := Reader.bind_eq_ok.mp found
  obtain ⟨access, _, readAccess, found⟩ := Reader.bind_eq_ok.mp found
  obtain ⟨thisClass, _, readThis, found⟩ := Reader.bind_eq_ok.mp found
  obtain ⟨superClass, _, readSuper, found⟩ := Reader.bind_eq_ok.mp found
  obtain ⟨interfaces, _, readInterfaces, found⟩ := Reader.bind_eq_ok.mp found
  obtain ⟨fields, _, readFields, found⟩ := Reader.bind_eq_ok.mp found
  obtain ⟨methods, _, readMethods, found⟩ := Reader.bind_eq_ok.mp found
  obtain ⟨attributes, _, readAttributes, same⟩ := Reader.bind_eq_ok.mp found
  obtain ⟨rfl, rfl⟩ := Reader.pure_eq_ok.mp same
  obtain ⟨filled, count, announced, poolBytes⟩ := ConstantPool.encodes_read readPool
  obtain ⟨interfacesSmall, interfacesBytes⟩ := Codec.u16.counted.encodes _ _ _ readInterfaces
  obtain ⟨fieldsSmall, fieldsBytes⟩ := Member.codec.counted.encodes _ _ _ readFields
  obtain ⟨methodsSmall, methodsBytes⟩ := Member.codec.counted.encodes _ _ _ readMethods
  obtain ⟨attributesSmall, attributesBytes⟩ := Attribute.codec.counted.encodes _ _ _ readAttributes
  refine ⟨⟨filled, interfacesSmall, fieldsSmall, methodsSmall, attributesSmall⟩, count, announced,
    ?_⟩
  rw [(Codec.u16.encodes _ _ _ readMinor).2, (Codec.u16.encodes _ _ _ readMajor).2, poolBytes,
    (Codec.u16.encodes _ _ _ readAccess).2, (Codec.u16.encodes _ _ _ readThis).2,
    (Codec.u16.encodes _ _ _ readSuper).2, interfacesBytes, fieldsBytes, methodsBytes,
    attributesBytes]
  simp only [tailBytes, List.append_assoc]

/-- A class file that was parsed is writable, and its bytes are the parsed ones up to the pool
count. -/
theorem bytes_of_parse (parsed : parse bytes = .ok c) :
    c.Writable ∧ ∃ count : UInt16, c.pool.AnnouncedBy count.toNat ∧ bytes = c.bytesWith count := by
  obtain ⟨offset, found⟩ := Reader.readAll_eq_ok.mp parsed
  obtain ⟨start, _, readMagic, found⟩ := Reader.bind_eq_ok.mp found
  have front := (Codec.u32.encodes _ _ _ readMagic).2
  split at found
  case isTrue known =>
    obtain ⟨writable, count, announced, body⟩ := encodes_body found
    refine ⟨writable, count, announced, ?_⟩
    rw [body, known] at front
    simpa only [bytesWith, List.append_nil] using front
  case isFalse => cases found

end ClassFile

end ClassNaming
