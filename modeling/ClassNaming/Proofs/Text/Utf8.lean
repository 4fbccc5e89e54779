import Mathlib.Tactic.IntervalCases
import ClassNaming.Text.Utf8

/-!
# Reading UTF-8 that is well formed

What a text was encoded to is read as that text.  The leading byte of a character tells how many
bytes are to come, and within which range the first of them lies.  The range is narrower than that
of the others for the four leading bytes at the limits of what can be encoded, and the characters
keep to it.

## Main Results

* `decodeLossyFrom_encodeChar` - the bytes of a character are read as that character
* `decodeLossy_toUTF8` - the bytes of a text are read as that text
* `size_decodeLossy_take_le` - how long a text is read that was cut off
-/

namespace ClassNaming.Text

variable {done : List Char} {rest : List UInt8} {code missing n : Nat} {low high : UInt8}

/-! ### Leading bytes -/

theorem startChar_one (small : n ≤ 0x7F) : startChar (UInt8.ofNat n) = .inl (Char.ofNat n) := by
  interval_cases n <;> rfl

theorem startChar_two (least : 2 ≤ n) (small : n < 0x20) :
    startChar (UInt8.ofNat (n + 0xC0)) = .inr ⟨n, 1, 0x80, 0xBF⟩ := by
  interval_cases n <;> rfl

theorem startChar_three (small : n < 0x10) : startChar (UInt8.ofNat (n + 0xE0)) =
    .inr ⟨n, 2, if n = 0 then 0xA0 else 0x80, if n = 0xD then 0x9F else 0xBF⟩ := by
  interval_cases n <;> rfl

theorem startChar_four (small : n ≤ 4) : startChar (UInt8.ofNat (n + 0xF0)) =
    .inr ⟨n, 3, if n = 0 then 0x90 else 0x80, if n = 4 then 0x8F else 0xBF⟩ := by
  interval_cases n <;> rfl

/-! ### Bytes that continue a character -/

theorem toNat_continuation (small : n < 0x40) : (UInt8.ofNat (n + 0x80)).toNat = n + 0x80 := by
  rw [UInt8.toNat_ofNat']
  omega

/-- A byte of a character adds its six bits. -/
theorem decodeLossyFrom_continuation (least : low.toNat ≤ n + 0x80) (most : n + 0x80 ≤ high.toNat)
    (small : n < 0x40) :
    decodeLossyFrom done (some ⟨code, missing, low, high⟩) (UInt8.ofNat (n + 0x80) :: rest) =
      if missing ≤ 1 then decodeLossyFrom (Char.ofNat (code * 0x40 + n) :: done) none rest
      else decodeLossyFrom done (some ⟨code * 0x40 + n, missing - 1, 0x80, 0xBF⟩) rest := by
  have number := toNat_continuation small
  have bits : (UInt8.ofNat (n + 0x80) &&& 0x3F).toNat = n := by
    have mask : (0x3F : UInt8).toNat = 2 ^ 6 - 1 := rfl
    rw [UInt8.toNat_and, mask, Nat.and_two_pow_sub_one_eq_mod, number]
    omega
  have fits : low ≤ UInt8.ofNat (n + 0x80) ∧ UInt8.ofNat (n + 0x80) ≤ high := by
    rw [UInt8.le_iff_toNat_le, UInt8.le_iff_toNat_le, number]
    exact ⟨least, most⟩
  rw [decodeLossyFrom, if_pos fits]
  simp only [bits]

/-! ### Characters -/

/-- The number of a character is below the surrogates or above them. -/
theorem isValid_toNat (c : Char) :
    c.val.toNat < 0xD800 ∨ 0xDFFF < c.val.toNat ∧ c.val.toNat < 0x110000 :=
  c.valid

/-- The bytes of a character are read as that character. -/
theorem decodeLossyFrom_encodeChar (c : Char) (done : List Char) (rest : List UInt8) :
    decodeLossyFrom done none (String.utf8EncodeChar c ++ rest) =
      decodeLossyFrom (c :: done) none rest := by
  have valid := isValid_toNat c
  have back : Char.ofNat c.val.toNat = c := Char.ofNat_toNat c
  unfold String.utf8EncodeChar
  dsimp only
  generalize c.val.toNat = v at *
  split
  case isTrue one =>
    rw [List.singleton_append, decodeLossyFrom, startChar_one one, back]
  case isFalse =>
  split
  case isTrue two =>
    simp only [List.cons_append, List.nil_append]
    rw [decodeLossyFrom, startChar_two (by omega) (by omega)]
    simp only
    rw [decodeLossyFrom_continuation (by simp) (by simp; omega) (by omega), if_pos (by decide)]
    rw [show v / 64 % 32 * 64 + v % 64 = v by omega, back]
  case isFalse =>
  split
  case isTrue three =>
    simp only [List.cons_append, List.nil_append]
    rw [decodeLossyFrom, startChar_three (by omega)]
    simp only
    rw [decodeLossyFrom_continuation _ _ (by omega), if_neg (by decide),
      decodeLossyFrom_continuation (by simp) (by simp; omega) (by omega), if_pos (by decide)]
    · rw [show (v / 4096 % 16 * 64 + v / 64 % 64) * 64 + v % 64 = v by omega, back]
    · split <;> simp
      omega
    · split <;> simp <;> omega
  case isFalse =>
    simp only [List.cons_append, List.nil_append]
    rw [decodeLossyFrom, startChar_four (by omega)]
    simp only
    rw [decodeLossyFrom_continuation _ _ (by omega), if_neg (by decide),
      decodeLossyFrom_continuation (by simp) (by simp; omega) (by omega), if_neg (by decide),
      decodeLossyFrom_continuation (by simp) (by simp; omega) (by omega), if_pos (by decide)]
    · rw [show ((v / 262144 % 8 * 64 + v / 4096 % 64) * 64 + v / 64 % 64) * 64 + v % 64 = v by
        omega, back]
    · split <;> simp
      omega
    · split <;> simp <;> omega

theorem decodeLossyFrom_flatMap (text done : List Char) :
    decodeLossyFrom done none (text.flatMap String.utf8EncodeChar) = done.reverse ++ text := by
  induction text generalizing done with
  | nil => simp [decodeLossyFrom]
  | cons c text ih => rw [List.flatMap_cons, decodeLossyFrom_encodeChar, ih]; simp

theorem toList_toUTF8 (text : String) :
    text.toUTF8.data.toList = text.toList.flatMap String.utf8EncodeChar := by
  have same : text.toUTF8 = (text.toList.flatMap String.utf8EncodeChar).toByteArray :=
    (String.utf8Encode_toList).symm
  rw [same, List.toList_data_toByteArray]

/-- **What a text was encoded to is read as that text.** -/
theorem decodeLossy_toUTF8 (text : String) : decodeLossy text.toUTF8.data.toList = text := by
  rw [decodeLossy, toList_toUTF8, decodeLossyFrom_flatMap]
  exact String.ofList_toList

/-! ### Texts that are cut off -/

/-- Every byte stands for one character at most, and what is open for one more. -/
theorem exists_decodeLossyFrom (bytes : List UInt8) (pending : Option OpenChar) (done : List Char) :
    ∃ text, decodeLossyFrom done pending bytes = done.reverse ++ text ∧
      text.length ≤ bytes.length + pending.toList.length := by
  induction bytes generalizing pending done with
  | nil =>
    cases pending with
    | none => exact ⟨[], by simp [decodeLossyFrom], by simp⟩
    | some _ => exact ⟨[replacement], by simp [decodeLossyFrom], by simp⟩
  | cons byte rest ih =>
    -- A byte goes on with what is open, or some more characters are done before the rest is read.
    have goesOn (more : List Char) (pending' : Option OpenChar)
        (few : more.length + pending'.toList.length ≤ 1 + pending.toList.length) :
        ∃ text, decodeLossyFrom (more ++ done) pending' rest = done.reverse ++ text ∧
          text.length ≤ (byte :: rest).length + pending.toList.length := by
      obtain ⟨text, same, length⟩ := ih pending' (more ++ done)
      refine ⟨more.reverse ++ text, by rw [same, List.reverse_append, List.append_assoc], ?_⟩
      rw [List.length_append, List.length_reverse, List.length_cons]
      omega
    cases pending with
    | none =>
      rw [decodeLossyFrom]
      split
      · exact goesOn [_] none (by simp)
      · exact goesOn [] (some _) (by simp)
    | some pending =>
      rw [decodeLossyFrom]
      split
      · dsimp only
        split
        · exact goesOn [_] none (by simp)
        · exact goesOn [] (some _) (by simp)
      · split
        · exact goesOn [_, _] none (by simp)
        · exact goesOn [_] (some _) (by simp)

theorem length_flatMap_encodeChar_le (text : List Char) :
    (text.flatMap String.utf8EncodeChar).length ≤ 4 * text.length := by
  induction text with
  | nil => exact Nat.zero_le _
  | cons c text ih =>
    have four := Char.utf8Size_le_four c
    rw [List.flatMap_cons, List.length_append, String.length_utf8EncodeChar, List.length_cons]
    omega

/-- The first bytes of a text are read as one that is hardly longer. -/
theorem exists_decodeLossyFrom_take (text done : List Char) (size : Nat) :
    ∃ read, decodeLossyFrom done none ((text.flatMap String.utf8EncodeChar).take size) =
      done.reverse ++ read ∧ (read.flatMap String.utf8EncodeChar).length ≤ size + 12 := by
  induction text generalizing done size with
  | nil => exact ⟨[], by simp [decodeLossyFrom], by simp⟩
  | cons c text ih =>
    rw [List.flatMap_cons]
    rcases Nat.lt_or_ge size (String.utf8EncodeChar c).length with cut | whole
    · obtain ⟨read, same, few⟩ := exists_decodeLossyFrom
        ((String.utf8EncodeChar c ++ text.flatMap String.utf8EncodeChar).take size) none done
      refine ⟨read, same, ?_⟩
      have length := length_flatMap_encodeChar_le read
      have four := Char.utf8Size_le_four c
      rw [String.length_utf8EncodeChar] at cut
      rw [List.length_take] at few
      simp only [Option.toList_none, List.length_nil] at few
      omega
    · obtain ⟨read, same, short⟩ := ih (c :: done) (size - (String.utf8EncodeChar c).length)
      refine ⟨c :: read, ?_, ?_⟩
      · rw [List.take_append, List.take_of_length_le whole, decodeLossyFrom_encodeChar, same]
        simp
      · rw [List.flatMap_cons, List.length_append]
        omega

/-- **A text that is cut off is read as one that is hardly longer.** -/
theorem size_decodeLossy_take_le (text : String) (size : Nat) :
    (decodeLossy (text.toUTF8.data.toList.take size)).toUTF8.data.toList.length ≤ size + 12 := by
  obtain ⟨read, same, short⟩ := exists_decodeLossyFrom_take text.toList [] size
  rw [toList_toUTF8, toList_toUTF8, decodeLossy, same, String.toList_ofList]
  exact short

end ClassNaming.Text
