import ClassNaming.Proofs.ClassFile.Basic

/-!
# Round trips of class files

Decoding undoes encoding for every class file whose parts fit their fields.  What that takes is said
here in terms of the class file alone: how long its lists and payloads may be, and that the wide
constants of its pool, and nothing else, have second slots.

Encoding undoes decoding up to the count field of the pool.  A reader takes that field as a bound
and not as a size, so it accepts two fields that no writer would write: zero for a pool without
constants, and the index of a second slot that lies beyond the announced ones.

## Main Definitions

* `Paired` - a list of slots in which exactly the wide constants have second slots
* `ClassFile.Encodable` - a class file whose parts fit their fields

## Main Results

* `ClassFile.parse_of_encodable` - decoding undoes encoding
* `ClassFile.toBytes_of_parse` - encoding undoes decoding up to the pool count
-/

namespace ClassNaming

/-! ### Second slots -/

/-- Behind every wide constant there is a second slot, and there is none anywhere else. -/
structure Paired (slots : List Constant) : Prop where
  second : ∀ (i : Nat) (c : Constant), slots[i]? = some c → c.isWide = true →
    slots[i + 1]? = some .unusable
  only : ∀ i : Nat, slots[i]? = some .unusable →
    ∃ (j : Nat) (c : Constant), i = j + 1 ∧ slots[j]? = some c ∧ c.isWide = true

namespace Paired

variable {c : Constant} {rest : List Constant}

/-- No list of slots begins with a second slot. -/
theorem head_ne (paired : Paired (c :: rest)) : c ≠ .unusable := by
  rintro rfl
  obtain ⟨_, _, impossible, -⟩ := paired.only 0 rfl
  cases impossible

/-- The slots behind a narrow constant are paired. -/
theorem of_narrow (paired : Paired (c :: rest)) (narrow : c.isWide = false) : Paired rest where
  second i := paired.second (i + 1)
  only i found := by
    obtain ⟨j, wide, same, there, isWide⟩ := paired.only (i + 1) found
    obtain rfl := Nat.succ.inj same
    cases i with
    | zero =>
      cases there
      rw [narrow] at isWide
      cases isWide
    | succ i => exact ⟨i, wide, rfl, there, isWide⟩

/-- Behind a wide constant there is an unusable slot, and the slots behind that are paired. -/
theorem of_wide (paired : Paired (c :: rest)) (wide : c.isWide = true) :
    ∃ later, rest = .unusable :: later ∧ Paired later := by
  have next : rest[0]? = some .unusable := paired.second 0 c rfl wide
  cases rest with
  | nil => cases next
  | cons first later =>
    cases next
    refine ⟨later, rfl, fun i => paired.second (i + 2), fun i found => ?_⟩
    obtain ⟨j, last, same, there, isWide⟩ := paired.only (i + 2) found
    obtain rfl : i + 1 = j := Nat.succ.inj same
    cases i with
    | zero =>
      cases there
      cases isWide
    | succ i => exact ⟨i, last, rfl, there, isWide⟩

end Paired

/-- Slots with short texts that are paired are such as a reader fills them. -/
theorem Filled.of_paired : ∀ {slots : List Constant}, Paired slots →
    (∀ bytes, .utf8 bytes ∈ slots → bytes.length ≤ 65535) → Filled slots
  | [], _, _ => .nil
  | c :: rest, paired, texts => by
    have small : c.Small := by
      cases c with
      | utf8 bytes => exact texts bytes List.mem_cons_self
      | unusable => exact paired.head_ne rfl
      | _ => trivial
    cases wide : c.isWide with
    | false =>
      refine .narrow small wide (of_paired (paired.of_narrow wide) fun bytes mem => ?_)
      exact texts bytes (List.mem_cons_of_mem _ mem)
    | true =>
      obtain ⟨later, rfl, paired'⟩ := paired.of_wide wide
      refine .wide small wide (of_paired paired' fun bytes mem => ?_)
      exact texts bytes (List.mem_cons_of_mem _ (List.mem_cons_of_mem _ mem))

/-- The count that is written is the one that was read, unless that was zero, or the index of a
second slot at the end. -/
theorem ConstantPool.AnnouncedBy.count_ne_iff {pool : ConstantPool} {count : UInt16}
    (announced : pool.AnnouncedBy count.toNat) :
    pool.count ≠ count ↔ count = 0 ∨ ∃ front last, last.isWide = true ∧
      pool.slots.toList = front ++ [last, .unusable] ∧ pool.slots.size = count.toNat := by
  have bound := count.toNat_lt
  have field : pool.count.toNat = (pool.slots.size + 1) % 65536 := UInt16.toNat_ofNat'
  rw [ne_eq, ← UInt16.toNat_inj, ← UInt16.toNat_inj, field, UInt16.toNat_zero]
  cases announced with
  | exact size =>
    refine iff_of_false (by omega) ?_
    rintro (none | ⟨_, _, -, -, size'⟩) <;> omega
  | zero none empty => exact iff_of_true (by omega) (.inl none)
  | overhang wide ends size =>
    exact iff_of_true (by omega) (.inr ⟨_, _, wide, ends, size⟩)

namespace ClassFile

variable {c : ClassFile} {bytes : List UInt8}

/-! ### Decoding what was encoded -/

/-- A class file whose parts fit their count and length fields, and whose pool has second slots
where they belong. -/
structure Encodable (c : ClassFile) : Prop where
  slots : c.pool.slots.size ≤ 65534
  paired : Paired c.pool.slots.toList
  texts : ∀ bytes, .utf8 bytes ∈ c.pool.slots.toList → bytes.length ≤ 65535
  interfaces : c.interfaces.length ≤ 65535
  fields : c.fields.length ≤ 65535
  methods : c.methods.length ≤ 65535
  attributes : c.attributes.length ≤ 65535
  memberAttributes : ∀ m ∈ c.fields ++ c.methods, m.attributes.length ≤ 65535
  payloads : ∀ a ∈ c.attributes ++ (c.fields ++ c.methods).flatMap Member.attributes,
    a.info.length < 0x100000000

/-- A class that can be encoded can be written. -/
theorem Encodable.writable (encodable : c.Encodable) : c.Writable := by
  have members : ∀ m ∈ c.fields ++ c.methods, m.Small := fun m mem =>
    ⟨encodable.memberAttributes m mem, fun a inside => encodable.payloads a
      (List.mem_append_right _ (List.mem_flatMap.mpr ⟨m, mem, inside⟩))⟩
  exact
    { pool := .of_paired encodable.paired encodable.texts
      interfaces := ⟨encodable.interfaces, fun _ _ => trivial⟩
      fields := ⟨encodable.fields, fun m mem => members m (List.mem_append_left _ mem)⟩
      methods := ⟨encodable.methods, fun m mem => members m (List.mem_append_right _ mem)⟩
      attributes := ⟨encodable.attributes, fun a mem =>
        encodable.payloads a (List.mem_append_left _ mem)⟩ }

/-- **Decoding undoes encoding** for every class file whose parts fit their fields. -/
theorem parse_of_encodable (encodable : c.Encodable) : parse c.toBytes = .ok c :=
  parse_toBytes_eq encodable.writable encodable.slots

/-- A class with a wide constant, and a field with an attribute. -/
def wideSample : ClassFile :=
  { minor := 0, major := 52, access := 0x21, thisClass := 0, superClass := 0
    pool := ⟨#[.utf8 [0x4A], .long 0x123456789ABCDEF0, .unusable, .methodHandle 6 1]⟩
    interfaces := [1]
    fields := [⟨0x12, 1, 1, [⟨1, [0, 2]⟩]⟩]
    methods := [], attributes := [] }

theorem encodable_wideSample : wideSample.Encodable where
  slots := by decide
  paired :=
    { second := fun i c there wide => by
        match i with
        | 0 | 2 | 3 => cases there; cases wide
        | 1 => rfl
        | i + 4 => cases there
      only := fun i there => by
        match i with
        | 0 | 1 | 3 => cases there
        | 2 => exact ⟨1, _, rfl, rfl, rfl⟩
        | i + 4 => cases there }
  texts bytes mem := by
    obtain rfl : bytes = [0x4A] := by simpa [wideSample] using mem
    decide
  interfaces := by decide
  fields := by decide
  methods := by decide
  attributes := by decide
  memberAttributes := by decide
  payloads := by decide

/-- So it is read back. -/
theorem parse_wideSample : wideSample.Encodable ∧ parse wideSample.toBytes = .ok wideSample :=
  ⟨encodable_wideSample, parse_of_encodable encodable_wideSample⟩

/-! ### Encoding what was decoded -/

/-- What stands before the count field of the pool. -/
def headBytes (c : ClassFile) : List UInt8 := writeU32 magic ++ writeU16 c.minor ++ writeU16 c.major

theorem length_headBytes (c : ClassFile) : c.headBytes.length = 8 := rfl

theorem length_writeU16 (n : UInt16) : (writeU16 n).length = 2 := rfl

/-- What stands behind the count field of the pool. -/
def restBytes (c : ClassFile) : List UInt8 :=
  c.pool.slots.toList.flatMap Constant.write ++ c.tailBytes

/-- The count stands behind the first eight bytes. -/
theorem bytesWith_eq (count : UInt16) (c : ClassFile) :
    c.bytesWith count = c.headBytes ++ (writeU16 count ++ c.restBytes) := by
  simp only [bytesWith, headBytes, restBytes, List.append_assoc]

/-- It is the field at the ninth byte. -/
theorem countField_bytesWith (count : UInt16) (c : ClassFile) :
    ((c.bytesWith count).drop 8).take 2 = writeU16 count := by
  rw [bytesWith_eq, ← length_headBytes c, List.drop_left, ← length_writeU16 count, List.take_left]

theorem writeU16_injective {m n : UInt16} (same : writeU16 m = writeU16 n) : m = n := by
  have numbers := congrArg bigEndian same
  rw [bigEndian_writeU16, bigEndian_writeU16] at numbers
  exact UInt16.toNat_inj.mp numbers

/-- Written with two counts, a class is the same just if the counts are. -/
theorem bytesWith_inj {count count' : UInt16} :
    c.bytesWith count = c.bytesWith count' ↔ count = count' := by
  refine ⟨fun same => writeU16_injective ?_, fun same => same ▸ rfl⟩
  rw [← countField_bytesWith count c, same, countField_bytesWith]

/-- The count does not change the length. -/
theorem length_bytesWith (count count' : UInt16) (c : ClassFile) :
    (c.bytesWith count).length = (c.bytesWith count').length := by
  simp only [bytesWith_eq, List.length_append, length_writeU16]

/-- The count field stands in the bytes 8 and 9. -/
theorem getElem?_bytesWith (count count' : UInt16) {i : Nat} (first : i ≠ 8) (second : i ≠ 9) :
    (c.bytesWith count)[i]? = (c.bytesWith count')[i]? := by
  have size : c.headBytes.length = 8 := length_headBytes c
  rw [bytesWith_eq, bytesWith_eq]
  rcases Nat.lt_or_ge i 8 with before | back
  · rw [List.getElem?_append_left (by omega), List.getElem?_append_left (by omega)]
  · have behind : ∀ n : UInt16, (writeU16 n).length ≤ i - c.headBytes.length := fun n => by
      rw [length_writeU16]
      omega
    rw [List.getElem?_append_right (by omega), List.getElem?_append_right (behind count),
      List.getElem?_append_right (by omega), List.getElem?_append_right (behind count')]
    rfl

/-- **Encoding undoes decoding** up to the pool count, and altogether unless that count was zero, or
the index of a second slot. -/
theorem toBytes_of_parse (parsed : parse bytes = .ok c) :
    c.toBytes.length = bytes.length ∧
    (∀ i, i ≠ 8 → i ≠ 9 → c.toBytes[i]? = bytes[i]?) ∧
    (c.toBytes.drop 8).take 2 = writeU16 (UInt16.ofNat (c.pool.slots.size + 1)) ∧
    ∃ count : UInt16, (bytes.drop 8).take 2 = writeU16 count ∧
      (c.toBytes = bytes ↔ count.toNat = (c.pool.slots.size + 1) % 65536) ∧
      (c.toBytes ≠ bytes ↔ count = 0 ∨ ∃ front last, last.isWide = true ∧
        c.pool.slots.toList = front ++ [last, .unusable] ∧
        c.pool.slots.size = count.toNat) := by
  obtain ⟨-, count, announced, rfl⟩ := bytes_of_parse parsed
  have field : c.pool.count.toNat = (c.pool.slots.size + 1) % 65536 := UInt16.toNat_ofNat'
  rw [toBytes_eq]
  refine ⟨length_bytesWith _ _ c, fun i => getElem?_bytesWith _ _, countField_bytesWith _ c, count,
    countField_bytesWith count c, ?_, ?_⟩
  · rw [bytesWith_inj, ← UInt16.toNat_inj, field, eq_comm]
  · rw [ne_eq, bytesWith_inj]
    exact announced.count_ne_iff

/-- A class whose only constant is wide and reaches beyond the announced slots. -/
def overhungSample : ClassFile :=
  { minor := 0, major := 52, pool := ⟨#[.long 7, .unusable]⟩, access := 0x21, thisClass := 0
    superClass := 0, interfaces := [], fields := [], methods := [], attributes := [] }

theorem parse_overhungSample : parse (overhungSample.bytesWith 2) = .ok overhungSample := rfl

/-- The class is read from bytes that it is not written to. -/
theorem toBytes_overhungSample :
    parse (overhungSample.bytesWith 2) = .ok overhungSample ∧
    overhungSample.toBytes ≠ overhungSample.bytesWith 2 := by
  refine ⟨parse_overhungSample, ?_⟩
  obtain ⟨-, -, -, count, field, -, differs⟩ := toBytes_of_parse parse_overhungSample
  obtain rfl : 2 = count := writeU16_injective field
  exact differs.mpr (.inr ⟨[], .long 7, rfl, rfl, rfl⟩)

end ClassFile

end ClassNaming
