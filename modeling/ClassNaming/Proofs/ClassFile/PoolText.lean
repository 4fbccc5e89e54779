import ClassNaming.Proofs.ClassFile.ConstantPool

/-!
# The text at an index

A pool reads plain bytes, which are ASCII without NUL, as standard UTF-8, and all other bytes as
modified UTF-8.  The two encodings part at NUL and at 0x80, and that is where the test for plain
bytes draws its border: on every sequence that passes it, both decoders give the same text, and
never refuse it.  So it makes no difference which of them is asked, and a text constant says what
its bytes are decoded to as modified UTF-8.

An index fails in one of two ways, which tell whether it leads to bytes at all.

## Main Results

* `ConstantPool.fromUTF8?_eq_decode?` - plain bytes in the two encodings
* `ConstantPool.text_eq_ok_iff`, `ConstantPool.text_eq_malformed_iff`,
  `ConstantPool.text_eq_noText_iff` - the three outcomes of an index
* `ConstantPool.text_is_decoded` - all of them, and the comparison with an expected text
-/

namespace ClassNaming

namespace ModifiedUtf8

theorem utf8EncodeChar_ofNat :
    ∀ n < 0x80, String.utf8EncodeChar (Char.ofNat n) = [UInt8.ofNat n] := by
  decide

/-- Bytes that are ASCII without NUL are the standard UTF-8 of what they are decoded to. -/
theorem fromUTF8?_of_plain (bytes : List UInt8) (plain : ∀ byte ∈ bytes, IsPlain byte) :
    String.fromUTF8? bytes.toByteArray = decode? bytes := by
  have coded : (bytes.map fun byte => Char.ofNat byte.toNat).flatMap String.utf8EncodeChar
      = bytes := by
    rw [List.flatMap_map]
    induction bytes with
    | nil => rfl
    | cons byte rest ih =>
      have single := utf8EncodeChar_ofNat byte.toNat (plain byte List.mem_cons_self).2
      rw [List.flatMap_cons, single, UInt8.ofNat_toNat,
        ih fun other inside => plain other (List.mem_cons_of_mem _ inside)]
      rfl
  have text : (String.ofList (bytes.map fun byte => Char.ofNat byte.toNat)).toByteArray
      = bytes.toByteArray := by
    rw [String.toByteArray_ofList, List.utf8Encode, coded]
  rw [decode?_of_plain bytes plain, ← text, String.fromUTF8?, dif_pos (String.isValidUTF8 _)]
  rfl

end ModifiedUtf8

namespace ConstantPool

variable {pool : ConstantPool} {index : UInt16} {text : String}

/-- Both decoders read plain bytes in the same way. -/
theorem fromUTF8?_eq_decode? {bytes : List UInt8} (plain : isPlain bytes = true) :
    String.fromUTF8? bytes.toByteArray = ModifiedUtf8.decode? bytes :=
  ModifiedUtf8.fromUTF8?_of_plain bytes (isPlain_iff.mp plain)

theorem text_eq_ok_iff : pool.text index = .ok text ↔
    ∃ bytes, pool.get? index = some (.utf8 bytes) ∧ ModifiedUtf8.decode? bytes = some text := by
  constructor
  · intro read
    obtain ⟨bytes, there⟩ := text_eq_ok read
    refine ⟨bytes, there, ?_⟩
    rw [text_eq, there] at read
    simp only at read
    split at read
    case h_1 other decoded => rw [decoded, Except.ok.inj read]
    case h_2 => cases read
  · rintro ⟨bytes, there, decoded⟩
    exact text_of_get? there decoded

theorem text_eq_malformed_iff : pool.text index = .error (.malformedText index) ↔
    ∃ bytes, pool.get? index = some (.utf8 bytes) ∧ ModifiedUtf8.decode? bytes = none := by
  rw [text_eq]
  constructor
  · intro refused
    split at refused
    case h_1 bytes there =>
      refine ⟨bytes, there, ?_⟩
      split at refused
      case h_1 => cases refused
      case h_2 malformed => exact malformed
    case h_2 => cases refused
  · rintro ⟨bytes, there, malformed⟩
    rw [there]
    simp only [malformed]

theorem text_eq_noText_iff : pool.text index = .error (.noText index) ↔
    ∀ bytes, pool.get? index ≠ some (.utf8 bytes) := by
  rw [text_eq]
  constructor
  · intro refused bytes there
    rw [there] at refused
    simp only at refused
    split at refused <;> cases refused
  · intro other
    split
    case h_1 bytes there => exact absurd there (other bytes)
    case h_2 => rfl

theorem hasText_iff : pool.hasText index text = true ↔ pool.text index = .ok text := by
  rw [hasText]
  cases pool.text index with
  | error e => simp
  | ok read => simp

/-- **The text at an index is what its bytes are decoded to**, whether they are plain or not.  If it
leads to no text constant, then there is no text; if it does, then the bytes decide.  An expected
text is there exactly if the bytes are decoded to it. -/
theorem text_is_decoded (pool : ConstantPool) (index : UInt16) :
    (∀ text, pool.text index = .ok text ↔
      ∃ bytes, pool.get? index = some (.utf8 bytes) ∧ ModifiedUtf8.decode? bytes = some text) ∧
    (pool.text index = .error (.malformedText index) ↔
      ∃ bytes, pool.get? index = some (.utf8 bytes) ∧ ModifiedUtf8.decode? bytes = none) ∧
    (pool.text index = .error (.noText index) ↔
      ∀ bytes, pool.get? index ≠ some (.utf8 bytes)) ∧
    (∀ expected, pool.hasText index expected = true ↔
      ∃ bytes, pool.get? index = some (.utf8 bytes) ∧
        ModifiedUtf8.decode? bytes = some expected) ∧
    ∀ bytes, isPlain bytes = true →
      String.fromUTF8? bytes.toByteArray = ModifiedUtf8.decode? bytes :=
  ⟨fun _ => text_eq_ok_iff, text_eq_malformed_iff, text_eq_noText_iff,
    fun _ => hasText_iff.trans text_eq_ok_iff, fun _ => fromUTF8?_eq_decode?⟩

/-- The last plain byte and the first one beyond, NUL in its own form, and two malformed texts. -/
example :
    let pool : ConstantPool :=
      ⟨#[.utf8 [0x7F], .utf8 [0xC2, 0x80], .utf8 [0xC0, 0x80], .utf8 [0x80], .utf8 [0], .string 1]⟩
    [1, 2, 3, 4, 5, 6].map pool.text =
      [.ok "\x7f", .ok "\u0080", .ok "\x00", .error (.malformedText 4), .error (.malformedText 5),
        .error (.noText 6)] :=
  rfl

end ConstantPool

end ClassNaming
