/-!
# Reading UTF-8 that may be malformed

Where a text must be read whatever its bytes are, each malformed sequence becomes a replacement
character.  The bytes that could have started a character together are replaced together: a leading
byte with as many continuation bytes as fit it.

## Main Definitions

* `leadRange?` - what may follow a leading byte
* `decodeLossy` - the text of any byte sequence
-/

namespace ClassNaming.Text

/-- The character that stands for malformed bytes. -/
def replacement : Char := '\ufffd'

/-- For a leading byte: how many continuation bytes follow, and the range of the first of them,
which excludes overlong forms, surrogates and numbers beyond the last character. -/
def leadRange? (lead : UInt8) : Option (Nat × UInt8 × UInt8) :=
  if 0xC2 ≤ lead ∧ lead ≤ 0xDF then some (1, 0x80, 0xBF)
  else if lead = 0xE0 then some (2, 0xA0, 0xBF)
  else if lead = 0xED then some (2, 0x80, 0x9F)
  else if 0xE1 ≤ lead ∧ lead ≤ 0xEF then some (2, 0x80, 0xBF)
  else if lead = 0xF0 then some (3, 0x90, 0xBF)
  else if 0xF1 ≤ lead ∧ lead ≤ 0xF3 then some (3, 0x80, 0xBF)
  else if lead = 0xF4 then some (3, 0x80, 0x8F)
  else none

/-- The bits that a leading byte with so many continuation bytes carries. -/
def leadBits (lead : UInt8) : Nat → Nat
  | 1 => (lead &&& 0x1F).toNat
  | 2 => (lead &&& 0x0F).toNat
  | _ => (lead &&& 0x07).toNat

/-- A character of which `missing` continuation bytes are still to come, the next of them between
`low` and `high`. -/
structure OpenChar where
  code : Nat
  missing : Nat
  low : UInt8
  high : UInt8

/-- The character that a byte starts: complete, open, or malformed. -/
def startChar (byte : UInt8) : Char ⊕ OpenChar :=
  if byte < 0x80 then .inl (Char.ofNat byte.toNat)
  else
    match leadRange? byte with
    | some (missing, low, high) => .inr ⟨leadBits byte missing, missing, low, high⟩
    | none => .inl replacement

/-- Reads on behind the characters `done`, which are in reverse. -/
def decodeLossyFrom (done : List Char) : Option OpenChar → List UInt8 → List Char
  | none, [] => done.reverse
  | some _, [] => (replacement :: done).reverse
  | none, byte :: rest =>
    match startChar byte with
    | .inl c => decodeLossyFrom (c :: done) none rest
    | .inr next => decodeLossyFrom done (some next) rest
  | some pending, byte :: rest =>
    if pending.low ≤ byte ∧ byte ≤ pending.high then
      let code := pending.code * 0x40 + (byte &&& 0x3F).toNat
      if pending.missing ≤ 1 then decodeLossyFrom (Char.ofNat code :: done) none rest
      else decodeLossyFrom done (some ⟨code, pending.missing - 1, 0x80, 0xBF⟩) rest
    else
      match startChar byte with
      | .inl c => decodeLossyFrom (c :: replacement :: done) none rest
      | .inr next => decodeLossyFrom (replacement :: done) (some next) rest

/-- The text of any byte sequence. -/
def decodeLossy (bytes : List UInt8) : String :=
  String.ofList (decodeLossyFrom [] none bytes)

end ClassNaming.Text
