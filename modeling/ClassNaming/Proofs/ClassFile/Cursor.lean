import ClassNaming.ClassFile.Cursor

/-!
# Laws of the byte readers

A reader and a writer belong together in two ways.  What was written is read back, whatever
follows it; and what was read is what the writer would have written.  `Codec` states both, so that
the codecs of larger structures can be put together from those of their fields.

Writers keep the low 16 bits of a count only, so the first law needs the values to be small
enough; the second one shows that a reader never yields others.  The predicate that a codec carries
says what small enough means.

## Main Definitions

* `Reads` - a reader yields a value from certain bytes, and stops behind them
* `Codec` - a reader and a writer that undo each other

## Main Results

* `Codec.u8`, `Codec.u16`, `Codec.u32`, `Codec.u64` - numbers
* `Codec.counted` - lists behind a 16-bit count
* `Codec.readAll_eq_ok_iff` - whole byte sequences
-/

namespace ClassNaming

variable {α β : Type}

/-- A reader yields the value from exactly these bytes, whatever follows them. -/
def Reads (read : Reader α) (value : α) (bytes : List UInt8) : Prop :=
  ∀ offset rest, read ⟨offset, bytes ++ rest⟩ = .ok (value, ⟨offset + bytes.length, rest⟩)

namespace Reads

theorem pure (value : α) : Reads (Pure.pure value) value [] := fun _ _ => rfl

/-- One field after the other. -/
theorem bind {read : Reader α} {next : α → Reader β} {a : α} {b : β} {front back : List UInt8}
    (first : Reads read a front) (second : Reads (next a) b back) :
    Reads (read >>= next) b (front ++ back) := by
  intro offset rest
  have step : (read >>= next) ⟨offset, front ++ back ++ rest⟩ =
      next a ⟨offset + front.length, back ++ rest⟩ := by
    rw [List.append_assoc]
    exact congrArg (fun outcome => outcome >>= fun read => next read.1 read.2)
      (first offset (back ++ rest))
  rw [step, second, List.length_append, Nat.add_assoc]

/-- A value that is changed after it was read was read from the same bytes. -/
theorem map {read : Reader α} {a : α} {bytes : List UInt8} (f : α → β)
    (field : Reads read a bytes) : Reads (f <$> read) (f a) bytes := by
  intro offset rest
  exact congrArg (fun outcome => outcome >>= fun read => .ok (f read.1, read.2))
    (field offset rest)

/-- A value that was read is the last thing to be returned. -/
theorem bind_pure {read : Reader α} {a : α} {bytes : List UInt8} (f : α → β)
    (field : Reads read a bytes) :
    Reads (read >>= fun value => Pure.pure (f value)) (f a) bytes := by
  rw [← List.append_nil bytes]
  exact field.bind (pure (f a))

/-- A reader that uses up the bytes yields the value from the whole sequence. -/
theorem readAll {read : Reader α} {value : α} {bytes : List UInt8}
    (field : Reads read value bytes) : read.readAll bytes = .ok value := by
  have run : StateT.run read ⟨0, bytes⟩ = .ok (value, ⟨0 + bytes.length, []⟩) := by
    have found := field 0 []
    rwa [List.append_nil] at found
  rw [Reader.readAll, run]
  rfl

end Reads

namespace Reader

/-- A computation in two steps yields a value exactly if both steps do. -/
theorem bind_eq_ok {read : Reader α} {next : α → Reader β} {cursor : Cursor}
    {outcome : β × Cursor} :
    (read >>= next) cursor = .ok outcome ↔
      ∃ value between, read cursor = .ok (value, between) ∧ next value between = .ok outcome := by
  have unfolded : (read >>= next) cursor =
      read cursor >>= fun read => next read.1 read.2 := rfl
  rw [unfolded]
  cases read cursor with
  | error e =>
    constructor
    · intro impossible
      cases impossible
    · rintro ⟨_, _, impossible, -⟩
      cases impossible
  | ok first =>
    obtain ⟨value, between⟩ := first
    constructor
    · intro second
      exact ⟨value, between, rfl, second⟩
    · rintro ⟨_, _, same, second⟩
      cases same
      exact second

/-- What a changed reader finds is a changed value. -/
theorem map_eq_ok {read : Reader α} {f : α → β} {cursor : Cursor} {result : β} {behind : Cursor} :
    (f <$> read) cursor = .ok (result, behind) ↔
      ∃ value, read cursor = .ok (value, behind) ∧ f value = result := by
  have unfolded : (f <$> read) cursor =
      read cursor >>= fun read => .ok (f read.1, read.2) := rfl
  rw [unfolded]
  cases read cursor with
  | error e =>
    constructor
    · intro impossible
      cases impossible
    · rintro ⟨_, impossible, -⟩
      cases impossible
  | ok first =>
    obtain ⟨value, between⟩ := first
    constructor
    · intro same
      cases same
      exact ⟨value, rfl, rfl⟩
    · rintro ⟨_, same, rfl⟩
      cases same
      rfl

/-- A reader that reads nothing finds its value and stays. -/
theorem pure_eq_ok {value result : α} {cursor behind : Cursor} :
    (pure value : Reader α) cursor = .ok (result, behind) ↔ value = result ∧ cursor = behind := by
  have unfolded : (pure value : Reader α) cursor = .ok (value, cursor) := rfl
  rw [unfolded, Except.ok.injEq, Prod.mk.injEq]

/-- A whole sequence is read if the reader uses it up. -/
theorem readAll_eq_ok {read : Reader α} {bytes : List UInt8} {value : α} :
    read.readAll bytes = .ok value ↔ ∃ offset, read ⟨0, bytes⟩ = .ok (value, ⟨offset, []⟩) := by
  have run : StateT.run read ⟨0, bytes⟩ = read ⟨0, bytes⟩ := rfl
  rw [Reader.readAll, run]
  cases read ⟨0, bytes⟩ with
  | error e =>
    constructor
    · intro impossible
      cases impossible
    · rintro ⟨_, impossible⟩
      cases impossible
  | ok first =>
    obtain ⟨found, ⟨offset, rest⟩⟩ := first
    cases rest with
    | nil =>
      constructor
      · intro same
        cases same
        exact ⟨offset, rfl⟩
      · rintro ⟨_, same⟩
        cases same
        rfl
    | cons byte rest =>
      constructor
      · intro impossible
        cases impossible
      · rintro ⟨_, impossible⟩
        cases impossible

end Reader

/-! ### Fields of a fixed size -/

/-- Bytes are split off as they stand. -/
theorem splitBytes?_eq_some {taken rest bytes behind : List UInt8} {count : Nat} :
    splitBytes? taken count rest = some (bytes, behind) ↔
      ∃ field, field.length = count ∧ rest = field ++ behind ∧ bytes = taken.reverse ++ field := by
  induction count generalizing taken rest with
  | zero =>
    constructor
    · intro same
      obtain ⟨rfl, rfl⟩ : taken.reverse = bytes ∧ rest = behind := by simpa [splitBytes?] using same
      exact ⟨[], rfl, rfl, by simp⟩
    · rintro ⟨field, empty, rfl, rfl⟩
      obtain rfl := List.length_eq_zero_iff.mp empty
      simp [splitBytes?]
  | succ count ih =>
    cases rest with
    | nil =>
      constructor
      · intro impossible
        cases impossible
      · rintro ⟨field, size, short, -⟩
        obtain ⟨rfl, -⟩ := List.append_eq_nil_iff.mp short.symm
        cases size
    | cons byte rest =>
      rw [splitBytes?, ih]
      constructor
      · rintro ⟨field, rfl, rfl, rfl⟩
        exact ⟨byte :: field, rfl, rfl, by simp⟩
      · rintro ⟨field, size, whole, rfl⟩
        obtain ⟨first, field, rfl⟩ := List.exists_cons_of_length_eq_add_one size
        obtain ⟨rfl, rfl⟩ : byte = first ∧ rest = field ++ behind := by simpa using whole
        exact ⟨field, Nat.succ.inj size, rfl, by simp⟩

/-- A field of a fixed size is read if there are so many bytes. -/
theorem readBytes_eq_ok {count : Nat} {cursor behind : Cursor} {bytes : List UInt8} :
    readBytes count cursor = .ok (bytes, behind) ↔
      bytes.length = count ∧ cursor.rest = bytes ++ behind.rest ∧
        behind.offset = cursor.offset + count := by
  unfold readBytes
  constructor
  · intro found
    split at found
    case h_1 field rest split =>
      cases found
      obtain ⟨_, size, whole, rfl⟩ := splitBytes?_eq_some.mp split
      exact ⟨by simpa using size, by simpa using whole, rfl⟩
    · cases found
  · rintro ⟨size, whole, place⟩
    have split : splitBytes? [] count cursor.rest = some (bytes, behind.rest) :=
      splitBytes?_eq_some.mpr ⟨bytes, size, whole, by simp⟩
    rw [split, ← place]

/-- As many bytes as there are in a list are read as that list. -/
theorem reads_bytes (bytes : List UInt8) : Reads (readBytes bytes.length) bytes bytes :=
  fun _ _ => readBytes_eq_ok.mpr ⟨rfl, rfl, rfl⟩

/-! ### Codecs -/

/-- A reader and a writer that undo each other: what was written is read back if it is small enough,
and what was read is small enough and is what the writer writes. -/
structure Codec (read : Reader α) (write : α → List UInt8) (Small : α → Prop) : Prop where
  decodes : ∀ value, Small value → Reads read value (write value)
  encodes : ∀ cursor value behind, read cursor = .ok (value, behind) →
    Small value ∧ cursor.rest = write value ++ behind.rest

namespace Codec

variable {read : Reader α} {write : α → List UInt8} {Small : α → Prop}

/-- Whole byte sequences. -/
theorem readAll_eq_ok_iff (codec : Codec read write Small) {bytes : List UInt8} {value : α} :
    read.readAll bytes = .ok value ↔ Small value ∧ bytes = write value := by
  constructor
  · intro found
    obtain ⟨offset, found⟩ := Reader.readAll_eq_ok.mp found
    obtain ⟨small, whole⟩ := codec.encodes _ _ _ found
    exact ⟨small, by simpa using whole⟩
  · rintro ⟨small, rfl⟩
    exact (codec.decodes value small).readAll

end Codec

/-! ### Numbers -/

/-- A number of 16 bits is written with its high byte first. -/
theorem bigEndian_writeU16 (n : UInt16) : bigEndian (writeU16 n) = n.toNat := by
  have bound := n.toNat_lt
  simp only [bigEndian, writeU16, List.foldl_cons, List.foldl_nil, UInt16.toNat_toUInt8,
    UInt16.toNat_shiftRight, Nat.shiftRight_eq_div_pow]
  simp
  omega

/-- Any two bytes are those of a number. -/
theorem writeU16_bigEndian (a b : UInt8) : writeU16 (UInt16.ofNat (bigEndian [a, b])) = [a, b] := by
  have := a.toNat_lt
  have := b.toNat_lt
  simp only [bigEndian, writeU16, List.foldl_cons, List.foldl_nil, List.cons.injEq, and_true,
    ← UInt8.toNat_inj, UInt16.toNat_toUInt8,
    UInt16.toNat_shiftRight, Nat.shiftRight_eq_div_pow, UInt16.toNat_ofNat']
  simp
  omega

/-- A number of 32 bits is written with its high byte first. -/
theorem bigEndian_writeU32 (n : UInt32) : bigEndian (writeU32 n) = n.toNat := by
  have bound := n.toNat_lt
  simp only [bigEndian, writeU32, List.foldl_cons, List.foldl_nil, UInt32.toNat_toUInt8,
    UInt32.toNat_shiftRight, Nat.shiftRight_eq_div_pow]
  simp
  omega

/-- Any four bytes are those of a number. -/
theorem writeU32_bigEndian (a b c d : UInt8) :
    writeU32 (UInt32.ofNat (bigEndian [a, b, c, d])) = [a, b, c, d] := by
  have := a.toNat_lt
  have := b.toNat_lt
  have := c.toNat_lt
  have := d.toNat_lt
  simp only [bigEndian, writeU32, List.foldl_cons, List.foldl_nil, List.cons.injEq, and_true,
    ← UInt8.toNat_inj, UInt32.toNat_toUInt8,
    UInt32.toNat_shiftRight, Nat.shiftRight_eq_div_pow, UInt32.toNat_ofNat']
  simp
  omega

/-- The number of two halves, as it is read. -/
def joinHalves (high low : UInt32) : UInt64 :=
  UInt64.ofNat (high.toNat * 0x100000000 + low.toNat)

/-- A wide number is made of its halves. -/
theorem joinHalves_halves (n : UInt64) : joinHalves (n >>> 32).toUInt32 n.toUInt32 = n := by
  have bound := n.toNat_lt
  apply UInt64.toNat_inj.mp
  simp only [joinHalves, UInt64.toNat_toUInt32, UInt64.toNat_shiftRight,
    Nat.shiftRight_eq_div_pow, UInt64.toNat_ofNat']
  simp
  omega

/-- Two halves make a wide number that has them. -/
theorem halves_joinHalves (high low : UInt32) :
    (joinHalves high low >>> 32).toUInt32 = high ∧ (joinHalves high low).toUInt32 = low := by
  have := high.toNat_lt
  have := low.toNat_lt
  constructor
  · apply UInt32.toNat_inj.mp
    simp only [joinHalves, UInt64.toNat_toUInt32, UInt64.toNat_shiftRight,
      Nat.shiftRight_eq_div_pow, UInt64.toNat_ofNat']
    simp
    omega
  · apply UInt32.toNat_inj.mp
    simp [joinHalves]

namespace Codec

/-- Numbers of a fixed size. -/
theorem number {ofNat : Nat → α} {write : α → List UInt8} {count : Nat}
    (size : ∀ n, (write n).length = count) (back : ∀ n, ofNat (bigEndian (write n)) = n)
    (forth : ∀ bytes, bytes.length = count → write (ofNat (bigEndian bytes)) = bytes) :
    Codec (do return ofNat (bigEndian (← readBytes count))) write (fun _ => True) where
  decodes n _ := by
    have field := (reads_bytes (write n)).bind_pure fun bytes => ofNat (bigEndian bytes)
    rwa [size, back] at field
  encodes cursor n behind found := by
    obtain ⟨bytes, between, read, same⟩ := Reader.bind_eq_ok.mp found
    obtain ⟨rfl, rfl⟩ := Reader.pure_eq_ok.mp same
    obtain ⟨length, whole, -⟩ := readBytes_eq_ok.mp read
    exact ⟨trivial, by rw [forth bytes length, whole]⟩

theorem u8 : Codec readU8 (fun n => [n]) (fun _ => True) := by
  refine number (fun _ => rfl) (fun n => ?_) (fun bytes length => ?_)
  · simp [bigEndian]
  · obtain ⟨byte, rfl⟩ := List.length_eq_one_iff.mp length
    simp [bigEndian]

theorem u16 : Codec readU16 writeU16 (fun _ => True) := by
  refine number (fun _ => rfl) (fun n => ?_) (fun bytes length => ?_)
  · rw [bigEndian_writeU16, UInt16.ofNat_toNat]
  · match bytes, length with
    | [a, b], _ => exact writeU16_bigEndian a b

theorem u32 : Codec readU32 writeU32 (fun _ => True) := by
  refine number (fun _ => rfl) (fun n => ?_) (fun bytes length => ?_)
  · rw [bigEndian_writeU32, UInt32.ofNat_toNat]
  · match bytes, length with
    | [a, b, c, d], _ => exact writeU32_bigEndian a b c d

theorem u64 : Codec readU64 writeU64 (fun _ => True) where
  decodes n _ := by
    have halves : Reads readU64 (joinHalves (n >>> 32).toUInt32 n.toUInt32) (writeU64 n) :=
      (u32.decodes _ trivial).bind ((u32.decodes _ trivial).bind_pure (joinHalves _))
    rwa [joinHalves_halves] at halves
  encodes cursor n behind found := by
    obtain ⟨high, between, readHigh, found⟩ := Reader.bind_eq_ok.mp found
    obtain ⟨low, _, readLow, same⟩ := Reader.bind_eq_ok.mp found
    obtain ⟨rfl, rfl⟩ := Reader.pure_eq_ok.mp same
    have front := (u32.encodes _ _ _ readHigh).2
    have back := (u32.encodes _ _ _ readLow).2
    obtain ⟨highHalf, lowHalf⟩ := halves_joinHalves high low
    refine ⟨trivial, ?_⟩
    rw [writeU64]
    change cursor.rest = writeU32 (joinHalves high low >>> 32).toUInt32 ++
      writeU32 (joinHalves high low).toUInt32 ++ _
    rw [highHalf, lowHalf, front, back, List.append_assoc]

end Codec

/-! ### Lists -/

section Lists

variable {read : Reader α} {write : α → List UInt8} {Small : α → Prop}

/-- Values that are written one after the other are read so. -/
theorem readMore_reads (codec : Codec read write Small) (done values : List α)
    (small : ∀ value ∈ values, Small value) :
    Reads (readMore read done values.length) (done.reverse ++ values) (values.flatMap write) := by
  induction values generalizing done with
  | nil => simpa [readMore] using Reads.pure done.reverse
  | cons value rest ih =>
    have first := codec.decodes value (small value List.mem_cons_self)
    have more := ih (value :: done) fun value inside => small value (List.mem_cons_of_mem _ inside)
    rw [List.reverse_cons, List.append_assoc, List.singleton_append] at more
    exact first.bind more

/-- Values that are read one after the other were written so. -/
theorem readMore_eq_ok (codec : Codec read write Small) {done values : List α} {count : Nat}
    {cursor behind : Cursor} (found : readMore read done count cursor = .ok (values, behind)) :
    ∃ new, values = done.reverse ++ new ∧ new.length = count ∧ (∀ value ∈ new, Small value) ∧
      cursor.rest = new.flatMap write ++ behind.rest := by
  induction count generalizing done cursor with
  | zero =>
    obtain ⟨rfl, rfl⟩ := Reader.pure_eq_ok.mp found
    exact ⟨[], by simp, rfl, by simp, rfl⟩
  | succ count ih =>
    obtain ⟨value, between, readValue, readRest⟩ := Reader.bind_eq_ok.mp found
    obtain ⟨small, front⟩ := codec.encodes _ _ _ readValue
    obtain ⟨new, rfl, size, allSmall, back⟩ := ih readRest
    refine ⟨value :: new, by simp, by simp [size], by simpa using ⟨small, allSmall⟩, ?_⟩
    rw [front, back, List.flatMap_cons, List.append_assoc]

/-- What a list behind a 16-bit count may hold. -/
def Counted (Small : α → Prop) (values : List α) : Prop :=
  values.length ≤ 65535 ∧ ∀ value ∈ values, Small value

/-- A list behind a 16-bit count. -/
theorem Codec.counted (codec : Codec read write Small) :
    Codec (readCounted read) (writeCounted write) (Counted Small) where
  decodes values fits := by
    obtain ⟨short, small⟩ := fits
    have count : (UInt16.ofNat values.length).toNat = values.length := by
      rw [UInt16.toNat_ofNat']
      exact Nat.mod_eq_of_lt (by omega)
    have more := readMore_reads codec [] values small
    rw [← count] at more
    exact (Codec.u16.decodes _ trivial).bind more
  encodes cursor values behind found := by
    obtain ⟨count, between, readCount, found⟩ := Reader.bind_eq_ok.mp found
    obtain ⟨-, front⟩ := Codec.u16.encodes _ _ _ readCount
    obtain ⟨_, rfl, size, small, back⟩ := readMore_eq_ok codec found
    have bound := count.toNat_lt
    refine ⟨⟨by omega, small⟩, ?_⟩
    rw [front, back, writeCounted, size, UInt16.ofNat_toNat, List.append_assoc]

end Lists

end ClassNaming
