import ClassNaming.ClassFile.ConstantPool
import ClassNaming.Proofs.ClassFile.Cursor
import ClassNaming.Proofs.ClassFile.ModifiedUtf8

/-!
# Laws of constants and pools

A pool is read constant by constant until its last slot is filled.  Wide constants fill two slots,
so the list of slots is not just any list: `Filled` describes it by the same steps by which it is
read.  A pool that was read is filled, and a filled pool below the size limit is read back from its
bytes.

## Main Definitions

* `Constant.Small` - a constant that stands for itself and can be written
* `Filled` - a list of slots in which every wide constant has its second slot
* `ConstantPool.AnnouncedBy` - what a count field says of the slots that are read for it

## Main Results

* `Constant.codec` - constants
* `ConstantPool.reads_write`, `ConstantPool.encodes_read` - pools
* `ConstantPool.push_eq`, `ConstantPool.interned_of_intern` - what appending and interning do
-/

namespace ClassNaming

variable {α β : Type}

namespace Constant

/-- A constant that is no second slot, and a text short enough for its length field. -/
def Small : Constant → Prop
  | utf8 bytes => bytes.length ≤ 65535
  | unusable => False
  | _ => True

/-- What follows a tag, if it is one field. -/
theorem encodes_map {read : Reader α} {write : α → List UInt8} {Fits : α → Prop}
    (codec : Codec read write Fits) {make : α → Constant} {cursor behind : Cursor} {c : Constant}
    (found : (make <$> read) cursor = .ok (c, behind)) :
    ∃ field, make field = c ∧ cursor.rest = write field ++ behind.rest := by
  obtain ⟨field, read, same⟩ := Reader.map_eq_ok.mp found
  exact ⟨field, same, (codec.encodes _ _ _ read).2⟩

theorem reads_pair (make : UInt16 → UInt16 → Constant) (first second : UInt16) :
    Reads (readPair make) (make first second) (writeU16 first ++ writeU16 second) :=
  (Codec.u16.decodes first trivial).bind ((Codec.u16.decodes second trivial).bind_pure (make first))

/-- What follows a tag, if it is two numbers. -/
theorem encodes_pair {make : UInt16 → UInt16 → Constant} {cursor behind : Cursor} {c : Constant}
    (found : readPair make cursor = .ok (c, behind)) :
    ∃ first second, make first second = c ∧
      cursor.rest = writeU16 first ++ writeU16 second ++ behind.rest := by
  obtain ⟨first, between, readFirst, found⟩ := Reader.bind_eq_ok.mp found
  obtain ⟨second, _, readSecond, same⟩ := Reader.bind_eq_ok.mp found
  obtain ⟨made, rfl⟩ := Reader.pure_eq_ok.mp same
  refine ⟨first, second, made, ?_⟩
  rw [(Codec.u16.encodes _ _ _ readFirst).2, (Codec.u16.encodes _ _ _ readSecond).2,
    List.append_assoc]

/-- A small constant is read back from its bytes. -/
theorem reads_write (index : UInt16) (c : Constant) (small : c.Small) :
    Reads (Constant.read index) c c.write := by
  have tagged : ∀ (tag : UInt8) (bytes : List UInt8), Reads (readTagged index tag) c bytes →
      Reads (Constant.read index) c (tag :: bytes) := fun tag _ rest =>
    (Codec.u8.decodes tag trivial).bind rest
  cases c with
  | utf8 bytes =>
    refine tagged 1 _ ((Codec.u16.decodes _ trivial).bind ?_)
    have size : (UInt16.ofNat bytes.length).toNat = bytes.length := by
      rw [UInt16.toNat_ofNat']
      exact Nat.mod_eq_of_lt (Nat.lt_succ_of_le small)
    rw [size]
    exact (reads_bytes bytes).map utf8
  | integer bits => exact tagged 3 _ ((Codec.u32.decodes bits trivial).map integer)
  | float bits => exact tagged 4 _ ((Codec.u32.decodes bits trivial).map float)
  | long bits => exact tagged 5 _ ((Codec.u64.decodes bits trivial).map long)
  | double bits => exact tagged 6 _ ((Codec.u64.decodes bits trivial).map double)
  | classRef name => exact tagged 7 _ ((Codec.u16.decodes name trivial).map classRef)
  | string text => exact tagged 8 _ ((Codec.u16.decodes text trivial).map string)
  | fieldRef owner member => exact tagged 9 _ (reads_pair fieldRef owner member)
  | methodRef owner member => exact tagged 10 _ (reads_pair methodRef owner member)
  | interfaceMethodRef owner member =>
    exact tagged 11 _ (reads_pair interfaceMethodRef owner member)
  | nameAndType name descriptor => exact tagged 12 _ (reads_pair nameAndType name descriptor)
  | methodHandle kind reference =>
    exact tagged 15 _ ((Codec.u8.decodes kind trivial).bind
      ((Codec.u16.decodes reference trivial).map (methodHandle kind)))
  | methodType descriptor =>
    exact tagged 16 _ ((Codec.u16.decodes descriptor trivial).map methodType)
  | dynamic bootstrap member => exact tagged 17 _ (reads_pair dynamic bootstrap member)
  | invokeDynamic bootstrap member =>
    exact tagged 18 _ (reads_pair invokeDynamic bootstrap member)
  | module name => exact tagged 19 _ ((Codec.u16.decodes name trivial).map module)
  | package name => exact tagged 20 _ ((Codec.u16.decodes name trivial).map package)
  | unusable => exact small.elim

/-- What a constant was read from is what it is written as. -/
theorem encodes_readTagged {index : UInt16} {tag : UInt8} {cursor behind : Cursor} {c : Constant}
    (found : readTagged index tag cursor = .ok (c, behind)) :
    c.Small ∧ tag :: cursor.rest = c.write ++ behind.rest := by
  unfold readTagged at found
  split at found
  case h_1 =>
    obtain ⟨size, between, readSize, found⟩ := Reader.bind_eq_ok.mp found
    obtain ⟨bytes, read, rfl⟩ := Reader.map_eq_ok.mp found
    obtain ⟨length, back, -⟩ := readBytes_eq_ok.mp read
    have front := (Codec.u16.encodes _ _ _ readSize).2
    have bound := size.toNat_lt
    refine ⟨?_, ?_⟩
    · change bytes.length ≤ 65535
      omega
    · rw [front, back, write, length, UInt16.ofNat_toNat]
      simp
  case h_2 | h_3 =>
    obtain ⟨field, rfl, whole⟩ := encodes_map Codec.u32 found
    exact ⟨trivial, congrArg (_ :: ·) whole⟩
  case h_4 | h_5 =>
    obtain ⟨field, rfl, whole⟩ := encodes_map Codec.u64 found
    exact ⟨trivial, congrArg (_ :: ·) whole⟩
  case h_6 | h_7 | h_13 | h_16 | h_17 =>
    obtain ⟨field, rfl, whole⟩ := encodes_map Codec.u16 found
    exact ⟨trivial, congrArg (_ :: ·) whole⟩
  case h_8 | h_9 | h_10 | h_11 | h_14 | h_15 =>
    obtain ⟨first, second, rfl, whole⟩ := encodes_pair found
    exact ⟨trivial, congrArg (_ :: ·) whole⟩
  case h_12 =>
    obtain ⟨kind, between, readKind, found⟩ := Reader.bind_eq_ok.mp found
    obtain ⟨reference, rfl, back⟩ := encodes_map Codec.u16 found
    have front := (Codec.u8.encodes _ _ _ readKind).2
    exact ⟨trivial, by rw [front, back, write]; rfl⟩
  case h_18 => cases found

/-- Constants. -/
theorem codec (index : UInt16) : Codec (Constant.read index) write Small where
  decodes := reads_write index
  encodes cursor c behind found := by
    obtain ⟨tag, between, readTag, found⟩ := Reader.bind_eq_ok.mp found
    obtain ⟨small, whole⟩ := encodes_readTagged found
    rw [(Codec.u8.encodes _ _ _ readTag).2]
    exact ⟨small, whole⟩

end Constant

/-! ### Filled pools -/

/-- A list of slots as it is filled: one slot for a constant, and a second one if it is wide. -/
inductive Filled : List Constant → Prop
  | nil : Filled []
  | narrow {c : Constant} {rest : List Constant} :
      c.Small → c.isWide = false → Filled rest → Filled (c :: rest)
  | wide {c : Constant} {rest : List Constant} :
      c.Small → c.isWide = true → Filled rest → Filled (c :: .unusable :: rest)

theorem Filled.append {front back : List Constant} (first : Filled front) (second : Filled back) :
    Filled (front ++ back) := by
  induction first with
  | nil => exact second
  | narrow small narrow _ ih => exact .narrow small narrow ih
  | wide small wide _ ih => exact .wide small wide ih

namespace ConstantPool

variable {pool pool' : ConstantPool}

/-- Every wide constant of the pool has its second slot. -/
def IsFilled (pool : ConstantPool) : Prop := Filled pool.slots.toList

/-- The slots that a constant fills. -/
def slotsOf (c : Constant) : List Constant := if c.isWide then [c, .unusable] else [c]

theorem length_slotsOf (c : Constant) : (slotsOf c).length = if c.isWide then 2 else 1 := by
  unfold slotsOf
  split <;> rfl

/-- One more constant is read while a slot is left. -/
theorem readSlots_succ {count fuel : Nat} {done : Array Constant} (left : done.size + 1 < count) :
    readSlots count (fuel + 1) done = (do
      let c ← Constant.read (UInt16.ofNat (done.size + 1))
      readSlots count fuel (done ++ (slotsOf c).toArray)) := by
  rw [readSlots, if_pos left]
  congr
  funext c
  cases wide : c.isWide with
  | false => simp [slotsOf, wide]
  | true =>
    have joined : (done.push c).push .unusable = done ++ (slotsOf c).toArray := by
      apply Array.ext'
      simp [slotsOf, wide]
    simp [← joined]

theorem readSlots_full {count fuel : Nat} {done : Array Constant} (full : count ≤ done.size + 1) :
    readSlots count fuel done = pure done := by
  cases fuel with
  | zero => rfl
  | succ fuel => rw [readSlots, if_neg (Nat.not_lt.mpr full)]

/-- A list of slots is read back from its bytes, behind slots read before. -/
theorem reads_slots {slots : List Constant} (filled : Filled slots) (count fuel : Nat)
    (done : Array Constant) (size : done.size + slots.length + 1 = count)
    (enough : slots.length ≤ fuel) :
    Reads (readSlots count fuel done) (done ++ slots.toArray) (slots.flatMap Constant.write) := by
  induction filled generalizing fuel done with
  | nil =>
    rw [readSlots_full (Nat.le_of_eq size.symm)]
    simpa using Reads.pure done
  | @narrow c rest small narrow _ ih =>
    simp only [List.length_cons] at size enough
    obtain ⟨fuel, rfl⟩ : ∃ more, fuel = more + 1 := Nat.exists_eq_add_one.mpr (by omega)
    have first := (Constant.codec (UInt16.ofNat (done.size + 1))).decodes c small
    have more := ih fuel (done ++ (slotsOf c).toArray) (by simp [slotsOf, narrow]; omega) (by omega)
    have joined : done ++ (slotsOf c).toArray ++ rest.toArray = done ++ (c :: rest).toArray := by
      simp [slotsOf, narrow]
    rw [joined] at more
    rw [readSlots_succ (by omega)]
    exact first.bind more
  | @wide c rest small wide _ ih =>
    simp only [List.length_cons] at size enough
    obtain ⟨fuel, rfl⟩ : ∃ more, fuel = more + 1 := Nat.exists_eq_add_one.mpr (by omega)
    have first := (Constant.codec (UInt16.ofNat (done.size + 1))).decodes c small
    have more := ih fuel (done ++ (slotsOf c).toArray) (by simp [slotsOf, wide]; omega) (by omega)
    have joined : done ++ (slotsOf c).toArray ++ rest.toArray =
        done ++ (c :: Constant.unusable :: rest).toArray := by
      simp [slotsOf, wide]
    rw [joined] at more
    rw [readSlots_succ (by omega)]
    exact first.bind more

/-- The count of a pool that is small enough fits its field. -/
theorem toNat_count (bound : pool.slots.size ≤ maxSlots) :
    pool.count.toNat = pool.slots.size + 1 := by
  unfold maxSlots at bound
  rw [ConstantPool.count, UInt16.toNat_ofNat']
  exact Nat.mod_eq_of_lt (by omega)

/-- A pool is read back from its bytes if its count fits the field. -/
theorem reads_write (filled : pool.IsFilled) (bound : pool.slots.size ≤ maxSlots) :
    Reads ConstantPool.read pool pool.write := by
  have count := toNat_count bound
  have slots := reads_slots filled pool.count.toNat pool.count.toNat #[] (by simp [count])
    (by simp [count])
  refine (Codec.u16.decodes pool.count trivial).bind ?_
  simpa using slots.bind_pure ConstantPool.mk

/-- What was read as slots is filled, and is what the slots are written as. -/
theorem encodes_readSlots {count fuel : Nat} {done slots : Array Constant} {cursor behind : Cursor}
    (found : readSlots count fuel done cursor = .ok (slots, behind)) :
    ∃ new, slots = done ++ new.toArray ∧ Filled new ∧
      cursor.rest = new.flatMap Constant.write ++ behind.rest := by
  induction fuel generalizing done cursor with
  | zero =>
    obtain ⟨rfl, rfl⟩ := Reader.pure_eq_ok.mp found
    exact ⟨[], by simp, .nil, rfl⟩
  | succ fuel ih =>
    rcases Nat.lt_or_ge (done.size + 1) count with left | full
    · rw [readSlots_succ left] at found
      obtain ⟨c, between, readFirst, readRest⟩ := Reader.bind_eq_ok.mp found
      obtain ⟨small, front⟩ := (Constant.codec _).encodes _ _ _ readFirst
      obtain ⟨new, rfl, filled, back⟩ := ih readRest
      refine ⟨slotsOf c ++ new, by simp, ?_, ?_⟩
      · cases wide : c.isWide with
        | false => simpa [slotsOf, wide] using Filled.narrow small wide filled
        | true => simpa [slotsOf, wide] using Filled.wide small wide filled
      · have written : (slotsOf c).flatMap Constant.write = c.write := by
          cases wide : c.isWide <;> simp [slotsOf, wide, Constant.write]
        rw [front, back, List.flatMap_append, written, List.append_assoc]
    · rw [readSlots_full full] at found
      obtain ⟨rfl, rfl⟩ := Reader.pure_eq_ok.mp found
      exact ⟨[], by simp, .nil, rfl⟩

/-- What a count field says of the slots that are read for it.  One more than their number, save
that a count of zero announces none, and that a wide constant at the end may overhang the count. -/
inductive AnnouncedBy (pool : ConstantPool) (count : Nat) : Prop
  | exact (size : pool.slots.size + 1 = count)
  | zero (none : count = 0) (empty : pool.slots.size = 0)
  | overhang {front : List Constant} {last : Constant} (wide : last.isWide = true)
      (ends : pool.slots.toList = front ++ [last, .unusable]) (size : pool.slots.size = count)

/-- Slots are read until the count is reached.  The last constant may reach one slot further. -/
theorem size_of_readSlots {count fuel : Nat} {done slots : Array Constant} {cursor behind : Cursor}
    (enough : count ≤ done.size + fuel + 1)
    (found : readSlots count fuel done cursor = .ok (slots, behind)) :
    slots.size + 1 = count ∨ slots = done ∧ count ≤ done.size + 1 ∨
      slots.size = count ∧ ∃ front last, last.isWide = true ∧
        slots.toList = front ++ [last, .unusable] := by
  induction fuel generalizing done cursor with
  | zero =>
    obtain ⟨rfl, rfl⟩ := Reader.pure_eq_ok.mp found
    exact .inr (.inl ⟨rfl, enough⟩)
  | succ fuel ih =>
    rcases Nat.lt_or_ge (done.size + 1) count with left | full
    · rw [readSlots_succ left] at found
      obtain ⟨c, between, -, readRest⟩ := Reader.bind_eq_ok.mp found
      have size : (done ++ (slotsOf c).toArray).size = done.size + if c.isWide then 2 else 1 := by
        simp [length_slotsOf]
      have more : count ≤ (done ++ (slotsOf c).toArray).size + fuel + 1 := by
        rw [size]
        split <;> omega
      rcases ih more readRest with exact | ⟨rfl, full⟩ | overhang
      · exact .inl exact
      · cases wide : c.isWide with
        | false =>
          rw [wide, if_neg (by decide)] at size
          exact .inl (by omega)
        | true =>
          rw [wide, if_pos rfl] at size
          rcases Nat.lt_or_ge (done.size + 2) count with exact | reached
          · exact .inl (by omega)
          · exact .inr (.inr ⟨by omega, done.toList, c, wide, by simp [slotsOf, wide]⟩)
      · exact .inr (.inr overhang)
    · rw [readSlots_full full] at found
      obtain ⟨rfl, rfl⟩ := Reader.pure_eq_ok.mp found
      exact .inr (.inl ⟨rfl, full⟩)

/-- A pool that was read is filled, and only its count may be written otherwise. -/
theorem encodes_read {cursor behind : Cursor}
    (found : ConstantPool.read cursor = .ok (pool, behind)) :
    pool.IsFilled ∧ ∃ count : UInt16, pool.AnnouncedBy count.toNat ∧ cursor.rest =
      writeU16 count ++ pool.slots.toList.flatMap Constant.write ++ behind.rest := by
  obtain ⟨count, between, readCount, found⟩ := Reader.bind_eq_ok.mp found
  obtain ⟨slots, _, readRest, same⟩ := Reader.bind_eq_ok.mp found
  obtain ⟨rfl, rfl⟩ := Reader.pure_eq_ok.mp same
  have announced : AnnouncedBy ⟨slots⟩ count.toNat := by
    rcases size_of_readSlots (by simp) readRest with size | ⟨rfl, full⟩ | ⟨size, _, _, wide, ends⟩
    · exact .exact size
    · rcases Nat.eq_zero_or_pos count.toNat with none | some
      · exact .zero none rfl
      · exact .exact (Nat.le_antisymm some full)
    · exact .overhang wide ends size
  obtain ⟨new, rfl, filled, back⟩ := encodes_readSlots readRest
  refine ⟨by simpa [IsFilled] using filled, count, announced, ?_⟩
  rw [(Codec.u16.encodes _ _ _ readCount).2, back]
  simp

/-! ### Texts -/

theorem isPlain_iff {bytes : List UInt8} :
    isPlain bytes = true ↔ ∀ byte ∈ bytes, ModifiedUtf8.IsPlain byte := by
  simp [isPlain, ModifiedUtf8.IsPlain, UInt8.le_iff_toNat_le, UInt8.lt_iff_toNat_lt]

/-- The text at an index is what the bytes there are decoded to.  Plain bytes are not decoded, but
they would be decoded to the same text. -/
theorem text_eq (pool : ConstantPool) (index : UInt16) : pool.text index =
    match pool.get? index with
    | some (.utf8 bytes) =>
      match ModifiedUtf8.decode? bytes with
      | some text => .ok text
      | none => .error (.malformedText index)
    | _ => .error (.noText index) := by
  rw [ConstantPool.text, textBytes]
  cases pool.get? index with
  | none => rfl
  | some c =>
    cases c with
    | utf8 bytes =>
      simp only
      split
      case isTrue plain => rw [ModifiedUtf8.decode?_of_plain bytes (isPlain_iff.mp plain)]
      case isFalse => rfl
    | _ => rfl

/-- What a text constant says. -/
theorem text_of_get? {index : UInt16} {bytes : List UInt8} {text : String}
    (there : pool.get? index = some (.utf8 bytes))
    (decoded : ModifiedUtf8.decode? bytes = some text) :
    pool.text index = .ok text := by
  rw [text_eq, there]
  simp only [decoded]

theorem text_eq_ok {index : UInt16} {text : String} (read : pool.text index = .ok text) :
    ∃ bytes, pool.get? index = some (.utf8 bytes) := by
  rw [text_eq] at read
  split at read
  case h_1 bytes there => exact ⟨bytes, there⟩
  case h_2 => cases read

/-! ### Growth -/

/-- Slots that are added behind the others change no index. -/
theorem get?_eq_of_grown (grown : pool.slots.toList <+: pool'.slots.toList) {index : UInt16}
    (inside : index.toNat ≤ pool.slots.size) : pool'.get? index = pool.get? index := by
  obtain ⟨new, whole⟩ := grown
  unfold ConstantPool.get?
  split
  · rfl
  case h_2 slot known =>
    rw [← Array.getElem?_toList, ← Array.getElem?_toList, ← whole,
      List.getElem?_append_left (by rw [Array.length_toList]; omega)]

/-- A pool grown out of another one: the old constants keep their indices, and only text constants
are appended. -/
def GrownFrom (pool' pool : ConstantPool) : Prop :=
  ∃ texts : List (List UInt8),
    pool'.slots.toList = pool.slots.toList ++ texts.map Constant.utf8

namespace GrownFrom

theorem refl (pool : ConstantPool) : pool.GrownFrom pool := ⟨[], by simp⟩

theorem trans {pool₁ pool₂ pool₃ : ConstantPool} (later : pool₃.GrownFrom pool₂)
    (sooner : pool₂.GrownFrom pool₁) : pool₃.GrownFrom pool₁ := by
  obtain ⟨texts, whole⟩ := sooner
  obtain ⟨texts', whole'⟩ := later
  exact ⟨texts ++ texts', by rw [whole', whole, List.map_append, List.append_assoc]⟩

/-- An index within the old pool leads to the same constant. -/
theorem get?_eq (grown : pool'.GrownFrom pool) {index : UInt16}
    (inside : index.toNat ≤ pool.slots.size) : pool'.get? index = pool.get? index := by
  obtain ⟨texts, whole⟩ := grown
  exact get?_eq_of_grown ⟨_, whole.symm⟩ inside

theorem textBytes_eq (grown : pool'.GrownFrom pool) {index : UInt16}
    (inside : index.toNat ≤ pool.slots.size) : pool'.textBytes index = pool.textBytes index := by
  rw [textBytes, textBytes, grown.get?_eq inside]

theorem text_eq (grown : pool'.GrownFrom pool) {index : UInt16}
    (inside : index.toNat ≤ pool.slots.size) : pool'.text index = pool.text index := by
  rw [ConstantPool.text, ConstantPool.text, grown.textBytes_eq inside]

theorem hasText_eq (grown : pool'.GrownFrom pool) {index : UInt16}
    (inside : index.toNat ≤ pool.slots.size) (expected : String) :
    pool'.hasText index expected = pool.hasText index expected := by
  rw [hasText, hasText, grown.text_eq inside]

end GrownFrom

/-- An index that leads to a constant lies within the pool. -/
theorem le_size_of_get? {index : UInt16} {c : Constant} (there : pool.get? index = some c) :
    index.toNat ≤ pool.slots.size := by
  unfold ConstantPool.get? at there
  split at there
  · cases there
  case h_2 slot known =>
    obtain ⟨inside, -⟩ := Array.getElem?_eq_some_iff.mp there
    omega

/-- What an old index says it still says. -/
theorem GrownFrom.text (grown : pool'.GrownFrom pool) {index : UInt16} {text : String}
    (read : pool.text index = .ok text) : pool'.text index = .ok text := by
  obtain ⟨bytes, there⟩ := text_eq_ok read
  rw [grown.text_eq (le_size_of_get? there), read]

/-- A constant is appended behind the last slot if the pool stays small enough. -/
theorem push_eq (pool : ConstantPool) (c : Constant) : pool.push c =
    if pool.slots.size + (slotsOf c).length ≤ maxSlots then
      .ok (UInt16.ofNat (pool.slots.size + 1), ⟨pool.slots ++ (slotsOf c).toArray⟩)
    else .error .poolFull := by
  rw [push, hasRoom, length_slotsOf]
  cases wide : c.isWide with
  | false => by_cases room : pool.slots.size + 1 ≤ maxSlots <;> simp [room, slotsOf, wide]
  | true =>
    have joined : (pool.slots.push c).push .unusable = pool.slots ++ (slotsOf c).toArray := by
      apply Array.ext'
      simp [slotsOf, wide]
    by_cases room : pool.slots.size + 2 ≤ maxSlots <;> simp [room, joined]

theorem push_eq_ok_iff {c : Constant} {index : UInt16} :
    pool.push c = .ok (index, pool') ↔
      pool.slots.size + (slotsOf c).length ≤ maxSlots ∧
        index = UInt16.ofNat (pool.slots.size + 1) ∧
          pool' = ⟨pool.slots ++ (slotsOf c).toArray⟩ := by
  rw [push_eq]
  split
  case isTrue room => simp [room, eq_comm]
  case isFalse full => simp [full]

/-- What interning a text yields: a pool grown out of the old one, and an index in it that leads to
the code of the text. -/
structure Interned (pool : ConstantPool) (text : String) (index : UInt16) (pool' : ConstantPool) :
    Prop where
  grown : pool'.GrownFrom pool
  bound : pool'.slots.size ≤ maxSlots
  filled : pool.IsFilled → pool'.IsFilled
  there : pool'.get? index = some (.utf8 (ModifiedUtf8.encode text))

/-- The slot behind an index. -/
theorem get?_ofNat_succ {slot : Nat} (inside : slot < maxSlots) :
    pool.get? (UInt16.ofNat (slot + 1)) = pool.slots[slot]? := by
  unfold maxSlots at inside
  have known : (UInt16.ofNat (slot + 1)).toNat = slot + 1 := by
    rw [UInt16.toNat_ofNat']
    exact Nat.mod_eq_of_lt (by omega)
  rw [ConstantPool.get?, known]

/-- Interning finds the code of the text, or appends it. -/
theorem interned_of_intern {text : String} {index : UInt16} (bound : pool.slots.size ≤ maxSlots)
    (done : pool.intern text = .ok (index, pool')) : pool.Interned text index pool' := by
  unfold intern at done
  simp only at done
  split at done
  · cases done
  case isFalse short =>
    split at done
    case h_1 slot found =>
      obtain ⟨rfl, rfl⟩ : UInt16.ofNat (slot + 1) = index ∧ pool = pool' := by simpa using done
      obtain ⟨inside, holds, -⟩ := Array.findIdx?_eq_some_iff_getElem.mp found
      refine ⟨.refl pool, bound, id, ?_⟩
      rw [get?_ofNat_succ (Nat.lt_of_lt_of_le inside bound), Array.getElem?_eq_getElem inside]
      split at holds
      case h_1 bytes held =>
        rw [held, eq_of_beq holds]
      case h_2 => cases holds
    case h_2 =>
      obtain ⟨room, rfl, rfl⟩ := push_eq_ok_iff.mp done
      have one : slotsOf (.utf8 (ModifiedUtf8.encode text)) =
          [.utf8 (ModifiedUtf8.encode text)] := rfl
      rw [one, List.length_singleton] at room
      rw [one]
      refine ⟨⟨[ModifiedUtf8.encode text], by simp⟩, by simpa using room, fun filled => ?_, ?_⟩
      · have small : (Constant.utf8 (ModifiedUtf8.encode text)).Small := Nat.not_lt.mp short
        have appended := filled.append (.narrow small rfl .nil)
        simpa [IsFilled] using appended
      · rw [get?_ofNat_succ (by omega)]
        simp

theorem Interned.text {text : String} {index : UInt16}
    (interned : pool.Interned text index pool') : pool'.text index = .ok text :=
  text_of_get? interned.there (ModifiedUtf8.decode?_encode_eq text)

end ConstantPool

end ClassNaming
