import Mathlib.Data.List.Chain
import ClassNaming.Proofs.ClassFile.ModifiedUtf8

/-!
# Which bytes are read as a text

A reader accepts the bytes that spell the units of a text, in whatever forms those units stand.  It
thereby refuses a zero byte, a byte that should continue a form and does not, a byte that continues
none, a form of four bytes, and a surrogate without its partner.

It does not refuse a form that is longer than need be, so a text has many spellings.  Only one of
them has no such form, and that is the code of the text.  Long forms show in two bytes: one of two
bytes begins with C1, or with C0 unless it is that of NUL, and one of three bytes begins with E0 and
goes on with a byte below A0.

## Main Definitions

* `Overlong` - the two bytes that a form begins with if it is longer than need be
* `Shortest` - bytes of which no two begin such a form

## Main Results

* `encode_is_faithful` - what encoding guarantees
* `decode?_eq_some_iff` - what a reader accepts as a text
* `decode?_accepts_spellings` - the code of a text is its only spelling without long forms
-/

namespace ClassNaming.ModifiedUtf8

variable {unit : Nat} {units : List Nat} {bytes form rest : List UInt8} {text : String}

/-! ### The bytes and units of forms -/

theorem ofNat_within {n : Nat} (filled : 1 ≤ n) (fits : n < 0xF0) :
    UInt8.ofNat n ≠ 0 ∧ UInt8.ofNat n < 0xF0 := by
  have number : (UInt8.ofNat n).toNat = n :=
    UInt8.toNat_ofNat_of_lt' (show n < 0x100 by omega)
  rw [Ne, ← UInt8.toNat_inj, UInt8.lt_iff_toNat_lt, number]
  exact ⟨Nat.ne_of_gt filled, fits⟩

/-- No form has a zero byte, or one that would begin a form of four bytes. -/
theorem Form.within (stands : Form unit form) : ∀ byte ∈ form, byte ≠ 0 ∧ byte < 0xF0 := by
  intro byte inside
  cases stands with
  | one filled fits =>
    obtain rfl := List.mem_singleton.mp inside
    exact ofNat_within filled (by omega)
  | two fits =>
    simp only [List.mem_cons, List.not_mem_nil, or_false] at inside
    rcases inside with rfl | rfl <;> exact ofNat_within (by omega) (by omega)
  | three fits =>
    simp only [List.mem_cons, List.not_mem_nil, or_false] at inside
    rcases inside with rfl | rfl | rfl <;> exact ofNat_within (by omega) (by omega)

theorem Spells.within (spelled : Spells units bytes) : ∀ byte ∈ bytes, byte ≠ 0 ∧ byte < 0xF0 := by
  induction spelled with
  | nil => simp
  | cons first _ ih =>
    intro byte inside
    rcases List.mem_append.mp inside with front | back
    · exact first.within byte front
    · exact ih byte back

theorem Form.isUnit (stands : Form unit form) : IsUnit unit := by
  unfold IsUnit
  cases stands <;> omega

theorem Spells.areUnits (spelled : Spells units bytes) : ∀ unit ∈ units, IsUnit unit := by
  induction spelled with
  | nil => simp
  | cons first _ ih => exact List.forall_mem_cons.mpr ⟨first.isUnit, ih⟩

/-! ### What a reader accepts -/

/-- A byte is its tag, with the bits beside it. -/
theorem toNat_of_tagged {byte mask tag : UInt8} (low : UInt8) (whole : mask = ~~~low)
    (tagged : byte &&& mask = tag) :
    (byte &&& low).toNat ≤ low.toNat ∧ byte.toNat = tag.toNat + (byte &&& low).toNat := by
  subst whole tagged
  have apart : (byte &&& ~~~low).toBitVec &&& (byte &&& low).toBitVec = 0#8 := by
    ext i
    simp only [UInt8.toBitVec_and, UInt8.toBitVec_not, BitVec.getElem_and, BitVec.getElem_not,
      BitVec.getElem_zero]
    cases low.toBitVec[i] <;> simp
  have whole : (byte &&& ~~~low).toBitVec ||| (byte &&& low).toBitVec = byte.toBitVec := by
    ext i
    simp only [UInt8.toBitVec_and, UInt8.toBitVec_not, BitVec.getElem_and, BitVec.getElem_not,
      BitVec.getElem_or]
    cases low.toBitVec[i] <;> simp
  constructor
  · rw [UInt8.toNat_and]
    exact Nat.and_le_right
  · have sum := BitVec.toNat_add_of_and_eq_zero apart
    rw [BitVec.add_eq_or_of_and_eq_zero _ _ apart, whole] at sum
    exact sum

theorem toNat_of_continuation? {byte : UInt8} {bits : Nat}
    (found : continuation? byte = some bits) : bits ≤ 0x3F ∧ byte.toNat = 0x80 + bits := by
  unfold continuation? at found
  split at found
  case isTrue tag =>
    obtain rfl := Option.some.inj found
    exact toNat_of_tagged 0x3F rfl tag
  case isFalse => cases found

/-- A form that was read, before what the rest was read as. -/
theorem Form.spells_cons {done read : List Nat} (stands : Form unit form)
    (later : ∃ units, read = (unit :: done).reverse ++ units ∧ Spells units rest) :
    ∃ units, read = done.reverse ++ units ∧ Spells units (form ++ rest) := by
  obtain ⟨units, rfl, spelled⟩ := later
  exact ⟨unit :: units, by simp, .cons stands spelled⟩

/-- Bytes are read as units only if they spell them. -/
theorem spells_of_unitsFrom? {done read : List Nat} (found : unitsFrom? done bytes = some read) :
    ∃ units, read = done.reverse ++ units ∧ Spells units bytes := by
  fun_induction unitsFrom? done bytes with
  | case1 done =>
    obtain rfl := Option.some.inj found
    exact ⟨[], by simp, .nil⟩
  | case3 done b₀ rest high filled ih =>
    obtain ⟨low₀, first⟩ : (b₀ &&& 0x7F).toNat ≤ 0x7F ∧ b₀.toNat = 0 + (b₀ &&& 0x7F).toNat :=
      toNat_of_tagged 0x7F rfl high
    have number : 1 ≤ b₀.toNat := Nat.one_le_iff_ne_zero.mpr fun zero =>
      filled (UInt8.toNat_inj.mp zero)
    have stands := Form.one number (by omega)
    rw [UInt8.ofNat_toNat] at stands
    exact stands.spells_cons (ih found)
  | case4 done b₀ _ tag b₁ rest x₁ second ih =>
    obtain ⟨low₀, first⟩ : (b₀ &&& 0x1F).toNat ≤ 0x1F ∧ b₀.toNat = 0xC0 + (b₀ &&& 0x1F).toNat :=
      toNat_of_tagged 0x1F rfl tag
    obtain ⟨low₁, second⟩ := toNat_of_continuation? second
    generalize (b₀ &&& 0x1F).toNat = x₀ at *
    have stands : Form (x₀ * 0x40 + x₁) [b₀, b₁] := by
      have form := @Form.two (x₀ * 0x40 + x₁) (by omega)
      rwa [show (x₀ * 0x40 + x₁) / 0x40 = x₀ by omega,
        show (x₀ * 0x40 + x₁) % 0x40 = x₁ by omega, ← first, ← second, UInt8.ofNat_toNat,
        UInt8.ofNat_toNat] at form
    exact stands.spells_cons (ih found)
  | case7 done b₀ _ _ tag b₁ b₂ rest x₁ x₂ third second ih =>
    obtain ⟨low₀, first⟩ : (b₀ &&& 0x0F).toNat ≤ 0x0F ∧ b₀.toNat = 0xE0 + (b₀ &&& 0x0F).toNat :=
      toNat_of_tagged 0x0F rfl tag
    obtain ⟨low₁, second⟩ := toNat_of_continuation? second
    obtain ⟨low₂, third⟩ := toNat_of_continuation? third
    generalize (b₀ &&& 0x0F).toNat = x₀ at *
    have stands : Form ((x₀ * 0x40 + x₁) * 0x40 + x₂) [b₀, b₁, b₂] := by
      have form := @Form.three ((x₀ * 0x40 + x₁) * 0x40 + x₂) (by omega)
      rwa [show ((x₀ * 0x40 + x₁) * 0x40 + x₂) / 0x1000 = x₀ by omega,
        show ((x₀ * 0x40 + x₁) * 0x40 + x₂) / 0x40 % 0x40 = x₁ by omega,
        show ((x₀ * 0x40 + x₁) * 0x40 + x₂) % 0x40 = x₂ by omega,
        ← first, ← second, ← third, UInt8.ofNat_toNat, UInt8.ofNat_toNat,
        UInt8.ofNat_toNat] at form
    exact stands.spells_cons (ih found)
  | case2 | case5 | case6 | case8 | case9 | case10 => cases found

theorem unitsOfBytes?_eq_some_iff : unitsOfBytes? bytes = some units ↔ Spells units bytes := by
  refine ⟨fun found => ?_, unitsOfBytes?_of_spells⟩
  obtain ⟨read, rfl, spelled⟩ := spells_of_unitsFrom? found
  exact spelled

theorem unitsOf_ofNat {n : Nat} (valid : n.isValidChar) : unitsOf (Char.ofNat n) =
    if n < 0x10000 then [n]
    else [0xD800 + (n - 0x10000) / 0x400, 0xDC00 + (n - 0x10000) % 0x400] := by
  have code : (Char.ofNat n).toNat = n := by
    rw [Char.ofNat, dif_pos valid]
    rfl
  rw [unitsOf, code]

/-- A character that was read, before what the rest was read as. -/
theorem exists_cons_flatMap {done read : List Char} {c : Char}
    (later : ∃ chars, read = (c :: done).reverse ++ chars ∧ units = chars.flatMap unitsOf) :
    ∃ chars, read = done.reverse ++ chars ∧ unitsOf c ++ units = chars.flatMap unitsOf := by
  obtain ⟨chars, rfl, rfl⟩ := later
  exact ⟨c :: chars, by simp, rfl⟩

/-- Units are read as characters only if they are the units of those. -/
theorem eq_flatMap_of_charsFrom? {done read : List Char} (areUnits : ∀ unit ∈ units, IsUnit unit)
    (found : charsFrom? done units = some read) :
    ∃ chars, read = done.reverse ++ chars ∧ units = chars.flatMap unitsOf := by
  fun_induction charsFrom? done units with
  | case1 done =>
    obtain rfl := Option.some.inj found
    exact ⟨[], by simp, rfl⟩
  | case2 done unit rest alone ih =>
    obtain ⟨isUnit, areUnits⟩ := List.forall_mem_cons.mp areUnits
    have short : unit < 0x10000 := isUnit
    have valid : unit.isValidChar := by
      unfold Nat.isValidChar
      omega
    have written : unitsOf (Char.ofNat unit) = [unit] := by
      rw [unitsOf_ofNat valid, if_pos short]
    have whole := exists_cons_flatMap (ih areUnits found)
    rwa [written] at whole
  | case4 done high pair above low rest below ih =>
    obtain ⟨-, areUnits⟩ := List.forall_mem_cons.mp areUnits
    obtain ⟨-, areUnits⟩ := List.forall_mem_cons.mp areUnits
    have bounds : 0xD800 ≤ high ∧ high < 0xDC00 := by omega
    generalize number : 0x10000 + (high - 0xD800) * 0x400 + (low - 0xDC00) = n at *
    have valid : n.isValidChar := by
      unfold Nat.isValidChar
      omega
    have written : unitsOf (Char.ofNat n) = [high, low] := by
      rw [unitsOf_ofNat valid, if_neg (by omega),
        show 0xD800 + (n - 0x10000) / 0x400 = high by omega,
        show 0xDC00 + (n - 0x10000) % 0x400 = low by omega]
    have whole := exists_cons_flatMap (ih areUnits found)
    rwa [written] at whole
  | case3 | case5 | case6 => cases found

/-- Bytes are read as a text exactly if they spell its units. -/
theorem decode?_eq_some_iff :
    decode? bytes = some text ↔ Spells (text.toList.flatMap unitsOf) bytes := by
  constructor
  · intro read
    obtain ⟨units, found, read⟩ := Option.bind_eq_some_iff.mp read
    obtain ⟨chars, found', rfl⟩ := Option.map_eq_some_iff.mp read
    have spelled := unitsOfBytes?_eq_some_iff.mp found
    obtain ⟨_, rfl, rfl⟩ := eq_flatMap_of_charsFrom? spelled.areUnits found'
    simpa using spelled
  · intro spelled
    rw [decode?, unitsOfBytes?_of_spells spelled, Option.bind_some, charsOfUnits?_flatMap,
      Option.map_some, String.ofList_toList]

/-! ### The shortest spelling -/

/-- Two bytes that a form begins with which is longer than its unit needs. -/
def Overlong (first second : UInt8) : Prop :=
  first = 0xC1 ∨ first = 0xC0 ∧ second ≠ 0x80 ∨ first = 0xE0 ∧ second < 0xA0

instance (first second : UInt8) : Decidable (Overlong first second) :=
  inferInstanceAs (Decidable (_ ∨ _ ∨ _))

/-- No form begins in the bytes that is longer than its unit needs. -/
def Shortest (bytes : List UInt8) : Prop :=
  bytes.IsChain fun first second => ¬ Overlong first second

instance (bytes : List UInt8) : Decidable (Shortest bytes) :=
  inferInstanceAs (Decidable (bytes.IsChain _))

theorem overlong_iff {first second : UInt8} : Overlong first second ↔
    first.toNat = 0xC1 ∨ first.toNat = 0xC0 ∧ second.toNat ≠ 0x80 ∨
      first.toNat = 0xE0 ∧ second.toNat < 0xA0 := by
  simp only [Overlong, ne_eq, ← UInt8.toNat_inj, UInt8.lt_iff_toNat_lt]
  rfl

theorem overlong_ofNat_iff {n : Nat} (fits : n < 0x100) {second : UInt8} :
    Overlong (UInt8.ofNat n) second ↔
      n = 0xC1 ∨ n = 0xC0 ∧ second.toNat ≠ 0x80 ∨ n = 0xE0 ∧ second.toNat < 0xA0 := by
  have number : (UInt8.ofNat n).toNat = n := UInt8.toNat_ofNat_of_lt' fits
  rw [overlong_iff, number]

/-- A byte that ends a form begins no long one. -/
theorem not_overlong_low {n : Nat} (small : n < 0xC0) (second : UInt8) :
    ¬ Overlong (UInt8.ofNat n) second := by
  rw [overlong_ofNat_iff (by omega)]
  omega

/-- Long forms are found in one form after the other. -/
theorem Form.shortest_append (stands : Form unit form) :
    Shortest (form ++ rest) ↔ Shortest form ∧ Shortest rest := by
  have ends : ∀ last ∈ form.getLast?, ∀ second, ¬ Overlong last second := by
    intro last isLast
    cases stands with
    | one filled fits =>
      obtain rfl := Option.some.inj isLast
      exact not_overlong_low (by omega)
    | two fits =>
      obtain rfl := Option.some.inj isLast
      exact not_overlong_low (by omega)
    | three fits =>
      obtain rfl := Option.some.inj isLast
      exact not_overlong_low (by omega)
  unfold Shortest
  rw [List.isChain_append]
  exact and_congr_right fun _ => and_iff_left fun last isLast second _ => ends last isLast second

/-- A form is no longer than need be exactly if the unit is written so. -/
theorem Form.shortest_iff (stands : Form unit form) : Shortest form ↔ form = encodeUnit unit := by
  unfold Shortest encodeUnit
  cases stands with
  | one filled fits =>
    rw [if_pos ⟨filled, fits⟩]
    exact iff_of_true (List.isChain_singleton _) rfl
  | two fits =>
    have low : (UInt8.ofNat (0x80 + unit % 0x40)).toNat = 0x80 + unit % 0x40 :=
      UInt8.toNat_ofNat_of_lt' (show _ < 0x100 by omega)
    rw [List.isChain_pair, overlong_ofNat_iff (by omega), low]
    split
    case isTrue single => exact iff_of_false (by omega) (by simp)
    case isFalse => exact iff_of_true (by omega) rfl
  | three fits =>
    have middle : (UInt8.ofNat (0x80 + unit / 0x40 % 0x40)).toNat = 0x80 + unit / 0x40 % 0x40 :=
      UInt8.toNat_ofNat_of_lt' (show _ < 0x100 by omega)
    rw [List.isChain_cons_cons, List.isChain_pair, and_iff_left (not_overlong_low (by omega) _),
      overlong_ofNat_iff (by omega), middle]
    split
    case isTrue single => exact iff_of_false (by omega) (by simp)
    split
    case isTrue two => exact iff_of_false (by omega) (by simp)
    case isFalse => exact iff_of_true (by omega) rfl

theorem shortest_flatMap (units : List Nat) (areUnits : ∀ unit ∈ units, IsUnit unit) :
    Shortest (units.flatMap encodeUnit) := by
  induction units with
  | nil => exact List.isChain_nil
  | cons unit rest ih =>
    obtain ⟨isUnit, areUnits⟩ := List.forall_mem_cons.mp areUnits
    have stands := form_encodeUnit isUnit
    rw [List.flatMap_cons, stands.shortest_append]
    exact ⟨stands.shortest_iff.mpr rfl, ih areUnits⟩

/-- Units are spelled without long forms only as they are written. -/
theorem Spells.eq_flatMap (spelled : Spells units bytes) (shortest : Shortest bytes) :
    bytes = units.flatMap encodeUnit := by
  induction spelled with
  | nil => rfl
  | cons first _ ih =>
    obtain ⟨front, back⟩ := first.shortest_append.mp shortest
    rw [List.flatMap_cons, first.shortest_iff.mp front, ← ih back]

theorem encode_eq_iff : encode text = bytes ↔ decode? bytes = some text ∧ Shortest bytes := by
  constructor
  · rintro rfl
    exact ⟨decode?_encode_eq text, shortest_flatMap _ (areUnits_toList text)⟩
  · rintro ⟨read, shortest⟩
    exact ((decode?_eq_some_iff.mp read).eq_flatMap shortest).symm

/-! ### Texts and their spellings -/

/-- **Encoding is faithful**: decoding undoes it, different texts have different codes, and a code
is made piece by piece.  No code has a zero byte, or a byte of a form of four bytes. -/
theorem encode_is_faithful (text other : String) :
    decode? (encode text) = some text ∧
    (∀ byte ∈ encode text, byte ≠ 0 ∧ byte < 0xF0) ∧
    (encode text = encode other → text = other) ∧
    encode (text ++ other) = encode text ++ encode other := by
  have spelled := decode?_eq_some_iff.mp (decode?_encode_eq text)
  exact ⟨decode?_encode_eq text, spelled.within, encode_injective, encode_append text other⟩

/-- **A reader accepts what spells the units of a text**, which no bytes with a zero byte or a byte
of a form of four bytes do.  The code of the text is its only spelling without long forms. -/
theorem decode?_accepts_spellings (bytes : List UInt8) (text : String) :
    (decode? bytes = some text ↔ Spells (text.toList.flatMap unitsOf) bytes) ∧
    (decode? bytes = some text → ∀ byte ∈ bytes, byte ≠ 0 ∧ byte < 0xF0) ∧
    (encode text = bytes ↔ decode? bytes = some text ∧ Shortest bytes) :=
  ⟨decode?_eq_some_iff, fun read => (decode?_eq_some_iff.mp read).within, encode_eq_iff⟩

/-- A letter is read from two bytes and from three bytes, but not written so. -/
theorem letter_in_long_forms :
    (decode? [0xC1, 0x81] = some "A" ∧ encode "A" ≠ [0xC1, 0x81]) ∧
    (decode? [0xE0, 0x81, 0x81] = some "A" ∧ encode "A" ≠ [0xE0, 0x81, 0x81]) := by
  decide

end ClassNaming.ModifiedUtf8
