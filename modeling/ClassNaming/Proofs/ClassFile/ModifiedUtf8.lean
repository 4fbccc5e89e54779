import ClassNaming.ClassFile.ModifiedUtf8

/-!
# Laws of modified UTF-8

Coding goes through 16-bit units, so the laws do as well: a unit is read back from its one to three
bytes, and a character from its one or two units.  A unit is written in its shortest form, but a
reader takes it in every form that has room for it.

## Main Definitions

* `Form` - the forms of a unit
* `Spells` - bytes that are forms of units, one after the other

## Main Results

* `decode?_encode_eq` - decoding undoes encoding
* `encode_append`, `encode_injective` - texts are encoded piece by piece, and differently
* `length_encode_le` - how many bytes a text takes
* `decode?_of_plain` - bytes that are ASCII without NUL are decoded to themselves
-/

namespace ClassNaming.ModifiedUtf8

/-! ### Units -/

/-- The number of a unit of 16 bits. -/
def IsUnit (unit : Nat) : Prop := unit < 0x10000

theorem single_byte : ∀ n < 0x80, 1 ≤ n →
    UInt8.ofNat n &&& 0x80 = 0 ∧ UInt8.ofNat n ≠ 0 ∧ (UInt8.ofNat n).toNat = n := by
  decide

theorem first_of_two : ∀ n < 0x20, UInt8.ofNat (0xC0 + n) &&& 0x80 ≠ 0 ∧
    UInt8.ofNat (0xC0 + n) &&& 0xE0 = 0xC0 ∧ (UInt8.ofNat (0xC0 + n) &&& 0x1F).toNat = n := by
  decide

theorem first_of_three : ∀ n < 0x10, UInt8.ofNat (0xE0 + n) &&& 0x80 ≠ 0 ∧
    UInt8.ofNat (0xE0 + n) &&& 0xE0 ≠ 0xC0 ∧ UInt8.ofNat (0xE0 + n) &&& 0xF0 = 0xE0 ∧
      (UInt8.ofNat (0xE0 + n) &&& 0x0F).toNat = n := by
  decide

theorem continuation?_ofNat : ∀ n < 0x40, continuation? (UInt8.ofNat (0x80 + n)) = some n := by
  decide

/-- The forms in which a unit can stand: one byte has room for seven bits, two for eleven and three
for all of them.  NUL has no form of one byte. -/
inductive Form : Nat → List UInt8 → Prop
  | one {unit : Nat} (filled : 1 ≤ unit) (fits : unit < 0x80) : Form unit [UInt8.ofNat unit]
  | two {unit : Nat} (fits : unit < 0x800) :
      Form unit [UInt8.ofNat (0xC0 + unit / 0x40), UInt8.ofNat (0x80 + unit % 0x40)]
  | three {unit : Nat} (fits : unit < 0x10000) :
      Form unit [UInt8.ofNat (0xE0 + unit / 0x1000), UInt8.ofNat (0x80 + unit / 0x40 % 0x40),
        UInt8.ofNat (0x80 + unit % 0x40)]

/-- A unit is written in one of its forms. -/
theorem form_encodeUnit {unit : Nat} (isUnit : IsUnit unit) : Form unit (encodeUnit unit) := by
  unfold encodeUnit
  split
  case isTrue single => exact .one single.1 single.2
  split
  case isTrue two => exact .two two
  case isFalse => exact .three isUnit

/-- A unit is read from any of its forms. -/
theorem unitsFrom?_form {unit : Nat} {form : List UInt8} (stands : Form unit form)
    (done : List Nat) (rest : List UInt8) :
    unitsFrom? done (form ++ rest) = unitsFrom? (unit :: done) rest := by
  cases stands with
  | one filled fits =>
    obtain ⟨ascii, filled, value⟩ := single_byte unit fits filled
    rw [List.singleton_append, unitsFrom?.eq_def]
    simp [ascii, filled, value]
  | two fits =>
    obtain ⟨high, tag, value⟩ := first_of_two (unit / 0x40) (by omega)
    have second := continuation?_ofNat (unit % 0x40) (by omega)
    have joined : unit / 0x40 * 0x40 + unit % 0x40 = unit := by omega
    rw [List.cons_append, List.singleton_append, unitsFrom?.eq_def]
    simp only [high, tag, value, second, if_false, if_true, joined]
  | three fits =>
    obtain ⟨high, notTwo, tag, value⟩ := first_of_three (unit / 0x1000) (by omega)
    have second := continuation?_ofNat (unit / 0x40 % 0x40) (by omega)
    have third := continuation?_ofNat (unit % 0x40) (by omega)
    have joined :
        (unit / 0x1000 * 0x40 + unit / 0x40 % 0x40) * 0x40 + unit % 0x40 = unit := by omega
    rw [List.cons_append, List.cons_append, List.singleton_append, unitsFrom?.eq_def]
    simp only [high, notTwo, tag, value, second, third, if_false, if_true, joined]

/-- The bytes are forms of the units, one after the other. -/
inductive Spells : List Nat → List UInt8 → Prop
  | nil : Spells [] []
  | cons {unit : Nat} {units : List Nat} {form bytes : List UInt8} (first : Form unit form)
      (later : Spells units bytes) : Spells (unit :: units) (form ++ bytes)

/-- What the units are written as spells them. -/
theorem spells_flatMap (units : List Nat) (areUnits : ∀ unit ∈ units, IsUnit unit) :
    Spells units (units.flatMap encodeUnit) := by
  induction units with
  | nil => exact .nil
  | cons unit rest ih =>
    rw [List.flatMap_cons]
    exact .cons (form_encodeUnit (areUnits unit List.mem_cons_self))
      (ih fun unit inside => areUnits unit (List.mem_cons_of_mem _ inside))

/-- Units are read from bytes that spell them. -/
theorem unitsOfBytes?_of_spells {units : List Nat} {bytes : List UInt8}
    (spelled : Spells units bytes) : unitsOfBytes? bytes = some units := by
  have general : ∀ done, unitsFrom? done bytes = some (done.reverse ++ units) := by
    induction spelled with
    | nil => simp [unitsFrom?]
    | cons first _ ih =>
      intro done
      rw [unitsFrom?_form first, ih]
      simp
  exact general []

/-- Units are read back from their bytes. -/
theorem unitsOfBytes?_flatMap (units : List Nat) (areUnits : ∀ unit ∈ units, IsUnit unit) :
    unitsOfBytes? (units.flatMap encodeUnit) = some units :=
  unitsOfBytes?_of_spells (spells_flatMap units areUnits)

/-! ### Characters -/

theorem isUnit_of_mem_unitsOf {c : Char} {unit : Nat} (inside : unit ∈ unitsOf c) :
    IsUnit unit := by
  have valid := c.valid
  unfold unitsOf at inside
  unfold IsUnit
  have bound : c.toNat < 0x110000 := by
    rcases valid with low | high
    · exact Nat.lt_trans low (by decide)
    · exact high.2
  simp only at inside
  split at inside
  · obtain rfl := List.mem_singleton.mp inside
    assumption
  · simp only [List.mem_cons, List.not_mem_nil, or_false] at inside
    omega

/-- A character is read back from its units. -/
theorem charsFrom?_unitsOf (done : List Char) (c : Char) (rest : List Nat) :
    charsFrom? done (unitsOf c ++ rest) = charsFrom? (c :: done) rest := by
  have valid : c.toNat < 0xD800 ∨ 0xDFFF < c.toNat ∧ c.toNat < 0x110000 := c.valid
  unfold unitsOf
  simp only
  split
  case isTrue short =>
    rw [List.singleton_append, charsFrom?.eq_def]
    simp only
    rw [if_pos (by omega), Char.ofNat_toNat]
  case isFalse long =>
    rw [List.cons_append, List.singleton_append, charsFrom?.eq_def]
    simp only
    rw [if_neg (by omega), if_neg (by omega), if_pos (by omega)]
    have joined : 0x10000 + (0xD800 + (c.toNat - 0x10000) / 0x400 - 0xD800) * 0x400 +
        (0xDC00 + (c.toNat - 0x10000) % 0x400 - 0xDC00) = c.toNat := by omega
    rw [joined, Char.ofNat_toNat]

theorem charsOfUnits?_flatMap (chars : List Char) :
    charsOfUnits? (chars.flatMap unitsOf) = some chars := by
  have general : ∀ done,
      charsFrom? done (chars.flatMap unitsOf) = some (done.reverse ++ chars) := by
    induction chars with
    | nil => simp [charsFrom?]
    | cons c rest ih =>
      intro done
      rw [List.flatMap_cons, charsFrom?_unitsOf, ih]
      simp
  exact general []

/-! ### Texts -/

theorem areUnits_toList (text : String) : ∀ unit ∈ text.toList.flatMap unitsOf, IsUnit unit := by
  intro unit inside
  obtain ⟨c, -, inside⟩ := List.mem_flatMap.mp inside
  exact isUnit_of_mem_unitsOf inside

/-- Decoding undoes encoding. -/
theorem decode?_encode_eq (text : String) : decode? (encode text) = some text := by
  rw [decode?, encode, unitsOfBytes?_flatMap _ (areUnits_toList text), Option.bind_some,
    charsOfUnits?_flatMap, Option.map_some, String.ofList_toList]

/-- Texts are encoded piece by piece. -/
theorem encode_append (text later : String) :
    encode (text ++ later) = encode text ++ encode later := by
  rw [encode, encode, encode, String.toList_append, List.flatMap_append, List.flatMap_append]

theorem encode_injective {text text' : String} (same : encode text = encode text') :
    text = text' := by
  have decoded := decode?_encode_eq text
  rw [same, decode?_encode_eq] at decoded
  exact (Option.some.inj decoded).symm

/-- A byte that is ASCII without NUL. -/
def IsPlain (byte : UInt8) : Prop := 1 ≤ byte.toNat ∧ byte.toNat < 0x80

theorem unitsOfBytes?_plain (bytes : List UInt8) (plain : ∀ byte ∈ bytes, IsPlain byte) :
    unitsOfBytes? bytes = some (bytes.map UInt8.toNat) := by
  have coded : ∀ byte, IsPlain byte → encodeUnit byte.toNat = [byte] := by
    intro byte range
    have single : 1 ≤ byte.toNat ∧ byte.toNat < 0x80 := range
    rw [encodeUnit, if_pos single, UInt8.ofNat_toNat]
  have whole : bytes = (bytes.map UInt8.toNat).flatMap encodeUnit := by
    rw [List.flatMap_map]
    induction bytes with
    | nil => rfl
    | cons byte rest ih =>
      rw [List.flatMap_cons, coded byte (plain byte List.mem_cons_self),
        ← ih fun other inside => plain other (List.mem_cons_of_mem _ inside)]
      rfl
  have areUnits : ∀ unit ∈ bytes.map UInt8.toNat, IsUnit unit := by
    intro unit inside
    obtain ⟨byte, -, rfl⟩ := List.mem_map.mp inside
    exact Nat.lt_trans byte.toNat_lt (by decide)
  have units := unitsOfBytes?_flatMap _ areUnits
  rwa [← whole] at units

theorem charsOfUnits?_plain (units : List Nat) (short : ∀ unit ∈ units, unit < 0x80) :
    charsOfUnits? units = some (units.map Char.ofNat) := by
  have coded : ∀ unit < 0x80, unitsOf (Char.ofNat unit) = [unit] := by decide
  have whole : units = (units.map Char.ofNat).flatMap unitsOf := by
    rw [List.flatMap_map]
    induction units with
    | nil => rfl
    | cons unit rest ih =>
      rw [List.flatMap_cons, coded unit (short unit List.mem_cons_self),
        ← ih fun other inside => short other (List.mem_cons_of_mem _ inside)]
      rfl
  have chars := charsOfUnits?_flatMap (units.map Char.ofNat)
  rwa [← whole] at chars

/-- Bytes that are ASCII without NUL are decoded to themselves. -/
theorem decode?_of_plain (bytes : List UInt8) (plain : ∀ byte ∈ bytes, IsPlain byte) :
    decode? bytes = some (String.ofList (bytes.map fun byte => Char.ofNat byte.toNat)) := by
  have short : ∀ unit ∈ bytes.map UInt8.toNat, unit < 0x80 := by
    intro unit inside
    obtain ⟨byte, member, rfl⟩ := List.mem_map.mp inside
    exact (plain byte member).2
  rw [decode?, unitsOfBytes?_plain bytes plain, Option.bind_some, charsOfUnits?_plain _ short,
    Option.map_some, List.map_map]
  rfl

end ClassNaming.ModifiedUtf8
