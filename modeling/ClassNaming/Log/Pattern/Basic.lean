import ClassNaming.Text.Blank

/-!
# The parts of patterns

A pattern describes texts.  It is a sequence of parts, most of which are characters that stand for
themselves.  A backslash gives the character behind it another meaning: it can be taken literally,
or name a character that is hard to write, a set of characters, or a place in the text.

What a part means, and whether it means anything, depends on the *modes* that are in force where it
stands.  Nothing is known here about characters but their numbers.  So as long as a pattern is about
characters there are no sets such as "all digits", no places at the ends of words, and no letters
regardless of their case.  A pattern can be about bytes instead.  Then all of these exist, but only
with the meaning they have in ASCII, and no part may match a byte outside of it, because what is
matched has to consist of whole characters.

## Main Definitions

* `Modes` - the modes, and what is allowed in them
* `Modes.skip`, `Modes.glance` - what comes next
* `Atom` - what is written as one character, or behind a backslash
* `Modes.escape?` - what is written behind a backslash
* `Parts` - how many parts a sequence has, and how deeply they are nested

## Design Notes

In a filter a pattern stands in braces, and ends at the first closing brace.  Since there is none in
a pattern, an opening brace cannot begin a count or a name: there it is an error.
-/

namespace ClassNaming.Pattern

/-- How a pattern is read from some place on. -/
structure Modes where
  /-- Blanks and comments stand for nothing. -/
  spaced : Bool
  /-- Capital and small letters are the same. -/
  caseless : Bool
  /-- The pattern is about characters, and not about bytes. -/
  aboutCharacters : Bool
  deriving Repr, DecidableEq

/-- What is written as one character, or behind a backslash. -/
inductive Atom where
  /-- A character.  It may be written as the number of a byte. -/
  | character (c : Char) (asByte : Bool)
  /-- A set that has a letter as its name: the digits, the blanks, or what words consist of, or all
  that is not among them. -/
  | namedSet (negated : Bool)
  /-- A place in the text, which may be one at the end of a word. -/
  | place (ofWord : Bool)
  deriving Repr, DecidableEq

/-- Whether the number of a character is below 128. -/
def isAscii (c : Char) : Bool := c.toNat < 0x80

/-! ### What is allowed -/

namespace Modes

/-- The modes at the start of a pattern. -/
def atStart : Modes := ⟨false, false, true⟩

/-- Whether a character may stand in a pattern. -/
def allowsCharacter (m : Modes) (c : Char) (asByte : Bool) : Bool :=
  if m.aboutCharacters then !m.caseless else isAscii c || !asByte

/-- Whether a character may stand in a set. -/
def allowsMember (m : Modes) (c : Char) : Bool :=
  if m.aboutCharacters then !m.caseless else isAscii c

/-- Whether a set with a name in brackets is allowed. -/
def allowsBracketedName (m : Modes) (negated : Bool) : Bool :=
  if m.aboutCharacters then !m.caseless else !negated

/-- Whether a set with a letter as its name is allowed. -/
def allowsNamedSet (m : Modes) (negated : Bool) : Bool := !m.aboutCharacters && !negated

/-- Whether a set may be turned into all that is not in it. -/
def allowsNegation (m : Modes) : Bool := m.aboutCharacters

/-- Whether the dot is allowed, which matches all or nearly all there is. -/
def allowsDot (m : Modes) : Bool := m.aboutCharacters

/-- Whether an atom may stand in a pattern. -/
def allows (m : Modes) : Atom → Bool
  | .character c asByte => m.allowsCharacter c asByte
  | .namedSet negated => m.allowsNamedSet negated
  | .place ofWord => !m.aboutCharacters || !ofWord

end Modes

/-! ### What comes next -/

/-- A text without the blanks and comments at its start, which may be within a comment.  A comment
ends with its line. -/
def skipBlanks : (inComment : Bool) → List Char → List Char
  | _, [] => []
  | true, c :: rest => skipBlanks (c ≠ '\n') rest
  | false, c :: rest =>
    if Text.isBlank c then skipBlanks false rest
    else if c == '#' then skipBlanks true rest
    else c :: rest

namespace Modes

/-- A text without what stands for nothing at its start. -/
def skip (m : Modes) (text : List Char) : List Char :=
  if m.spaced then skipBlanks false text else text

/-- The character that comes next.  Blanks and the mark of a comment are passed over where they
stand for nothing, but not the comment itself. -/
def glance (m : Modes) (text : List Char) : Option Char :=
  if !m.spaced then text.head?
  else
    match text.dropWhile Text.isBlank with
    | '#' :: comment => (comment.dropWhile Text.isBlank).head?
    | rest => rest.head?

end Modes

/-! ### Behind a backslash -/

/-- The value of a digit in base sixteen. -/
def hexDigit? (c : Char) : Option Nat :=
  if c.isDigit then some (c.toNat - '0'.toNat)
  else if 'a' ≤ c && c ≤ 'f' then some (c.toNat - 'a'.toNat + 10)
  else if 'A' ≤ c && c ≤ 'F' then some (c.toNat - 'A'.toNat + 10)
  else none

/-- How many digits follow a letter that announces the number of a character. -/
def digitCount? : Char → Option Nat
  | 'x' => some 2
  | 'u' => some 4
  | 'U' => some 8
  | _ => none

/-- The characters with a letter of their own. -/
def lettered? : Char → Option Char
  | 'a' => some '\x07'
  | 'f' => some '\x0c'
  | 't' => some '\t'
  | 'n' => some '\n'
  | 'r' => some '\r'
  | 'v' => some '\x0b'
  | _ => none

/-- Whether a character behind a backslash stands for itself: every mark of ASCII does, but for the
two angles. -/
def standsForItself (c : Char) : Bool := isAscii c && !c.isAlphanum && c ≠ '<' && c ≠ '>'

namespace Modes

/-- A number of some digits, of which the first ones were read already. -/
def number? (m : Modes) : (digits : Nat) → (value : Nat) → List Char → Option (Nat × List Char)
  | 0, value, text => some (value, text)
  | _ + 1, _, [] => none
  | digits + 1, value, c :: rest => do
    let digit ← hexDigit? c
    m.number? digits (16 * value + digit) (m.skip rest)

/-- What is written behind a backslash, and what follows. -/
def escape? (m : Modes) : List Char → Option (Atom × List Char)
  | [] => none
  | letter :: rest =>
    match digitCount? letter, lettered? letter with
    | some digits, _ => do
      let (value, rest) ← m.number? digits 0 (m.skip rest)
      if value.isValidChar then
        return (.character (Char.ofNat value) (letter == 'x'), rest)
      else none
    | none, some c => some (.character c false, rest)
    | none, none =>
      if ['d', 's', 'w'].contains letter then some (.namedSet false, rest)
      else if ['D', 'S', 'W'].contains letter then some (.namedSet true, rest)
      else if ['A', 'z'].contains letter then some (.place false, rest)
      else if ['b', 'B', '<', '>'].contains letter then some (.place true, rest)
      else if standsForItself letter then some (.character letter false, rest)
      else none

end Modes

/-! ### Sequences -/

/-- What is known of a sequence of parts: their number, the depth of the deepest one, and the depth
of the last one if it can be repeated. -/
structure Parts where
  size : Nat
  depth : Nat
  last : Option Nat
  deriving Repr, DecidableEq

namespace Parts

/-- No part yet. -/
def empty : Parts := ⟨0, 0, none⟩

/-- One more part. -/
def add (p : Parts) (depth : Nat) : Parts := ⟨p.size + 1, max p.depth depth, some depth⟩

/-- One more part that cannot be repeated. -/
def addSetting (p : Parts) : Parts := ⟨p.size + 1, p.depth, none⟩

/-- The last part is repeated. -/
def repeatLast? (p : Parts) : Option Parts :=
  p.last.map fun depth => ⟨p.size, max p.depth (depth + 1), some (depth + 1)⟩

/-- The depth of the whole sequence.  A sequence of one part is that part. -/
def nesting (p : Parts) : Nat := if p.size ≤ 1 then p.depth else p.depth + 1

end Parts

end ClassNaming.Pattern
