/-!
# Modified UTF-8

The text constants of a class file hold 16-bit units, each coded on its own in one to three bytes:

| unit            | bytes                              |
|-----------------|------------------------------------|
| 1 to 7F         | `0xxxxxxx`                         |
| 0, 80 to 7FF    | `110xxxxx 10xxxxxx`                |
| 800 to FFFF     | `1110xxxx 10xxxxxx 10xxxxxx`       |

So no byte is zero, and a character beyond the 16-bit range takes two units of three bytes each.  A
reader takes every two- and three-byte form at its value, also where a shorter form exists.

## Main Definitions

* `unitsOf`, `charsOfUnits?` - characters to 16-bit units and back
* `encodeUnit`, `unitsOfBytes?` - units to bytes and back
* `encode`, `decode?` - texts to bytes and back
-/

namespace ClassNaming.ModifiedUtf8

/-- The 16-bit units of a character. -/
def unitsOf (c : Char) : List Nat :=
  let code := c.toNat
  if code < 0x10000 then [code]
  else [0xD800 + (code - 0x10000) / 0x400, 0xDC00 + (code - 0x10000) % 0x400]

/-- The bytes of a unit. -/
def encodeUnit (unit : Nat) : List UInt8 :=
  if 1 ≤ unit ∧ unit < 0x80 then [UInt8.ofNat unit]
  else if unit < 0x800 then
    [UInt8.ofNat (0xC0 + unit / 0x40), UInt8.ofNat (0x80 + unit % 0x40)]
  else
    [UInt8.ofNat (0xE0 + unit / 0x1000), UInt8.ofNat (0x80 + unit / 0x40 % 0x40),
      UInt8.ofNat (0x80 + unit % 0x40)]

/-- The bytes of a text. -/
def encode (text : String) : List UInt8 :=
  (text.toList.flatMap unitsOf).flatMap encodeUnit

/-- The six bits that a continuation byte carries. -/
def continuation? (byte : UInt8) : Option Nat :=
  if byte &&& 0xC0 = 0x80 then some (byte &&& 0x3F).toNat else none

/-- The units of a byte sequence; `done` holds the units so far, in reverse. -/
def unitsFrom? (done : List Nat) : List UInt8 → Option (List Nat)
  | [] => some done.reverse
  | b₀ :: rest =>
    if b₀ &&& 0x80 = 0 then
      if b₀ = 0 then none else unitsFrom? (b₀.toNat :: done) rest
    else if b₀ &&& 0xE0 = 0xC0 then
      match rest with
      | b₁ :: rest =>
        match continuation? b₁ with
        | some x₁ => unitsFrom? (((b₀ &&& 0x1F).toNat * 0x40 + x₁) :: done) rest
        | none => none
      | [] => none
    else if b₀ &&& 0xF0 = 0xE0 then
      match rest with
      | b₁ :: b₂ :: rest =>
        match continuation? b₁, continuation? b₂ with
        | some x₁, some x₂ =>
          unitsFrom? ((((b₀ &&& 0x0F).toNat * 0x40 + x₁) * 0x40 + x₂) :: done) rest
        | _, _ => none
      | _ => none
    else none

/-- The units of a byte sequence; `none` if it is malformed. -/
def unitsOfBytes? (bytes : List UInt8) : Option (List Nat) :=
  unitsFrom? [] bytes

/-- The characters of a unit sequence; `done` holds the characters so far, in reverse. -/
def charsFrom? (done : List Char) : List Nat → Option (List Char)
  | [] => some done.reverse
  | unit :: rest =>
    if unit < 0xD800 ∨ 0xE000 ≤ unit then charsFrom? (Char.ofNat unit :: done) rest
    else if 0xDC00 ≤ unit then none
    else
      match rest with
      | low :: rest =>
        if 0xDC00 ≤ low ∧ low < 0xE000 then
          charsFrom?
            (Char.ofNat (0x10000 + (unit - 0xD800) * 0x400 + (low - 0xDC00)) :: done) rest
        else none
      | [] => none

/-- The characters of a unit sequence; `none` if a surrogate stands alone. -/
def charsOfUnits? (units : List Nat) : Option (List Char) :=
  charsFrom? [] units

/-- The text of a byte sequence; `none` if it is malformed. -/
def decode? (bytes : List UInt8) : Option String :=
  (unitsOfBytes? bytes).bind fun units => (charsOfUnits? units).map String.ofList

end ClassNaming.ModifiedUtf8
