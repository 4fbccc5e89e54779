import ClassNaming.Archive.Bytes
import ClassNaming.IoError

/-!
# Deflated contents

A deflated content is a sequence of blocks, the last of which is marked.  A block is stored, or
compressed with a fixed or an own pair of prefix codes: one for literal bytes, the end of the block
and the lengths of repetitions, the other for their distances.  Bits are taken from the low end of
each byte; the codes are canonical, so the lengths of the code words determine them.

A set of code words must be complete, save that a set may also be empty or a single word of one bit;
the code for the code lengths must always be complete.  Bits that start no word are refused as soon
as that is certain.  A repetition that reaches back before the content reads zeros there.  Whatever
follows the last block is ignored.

For writing, a content is put into stored blocks.

## Main Definitions

* `PrefixCode` - a canonical code
* `inflate` - the content of a deflated stream
* `deflateStored` - a deflated stream of stored blocks

## Design Notes

Every code word and every block takes at least one bit, so all loops are bounded by the number of
bits of the stream.
-/

namespace ClassNaming.Archive

/-- A computation that takes bits from a stream, at a position counted in bits. -/
abbrev BitReader := StateT Nat (Except IoError)

/-- Takes one bit. -/
def takeBit (stream : ByteArray) : BitReader Nat := fun position =>
  if position / 8 < stream.size then
    .ok (((byteAt stream (position / 8)).toNat >>> (position % 8)) % 2, position + 1)
  else .error .incompleteDeflate

/-- Takes a number of so many bits, low end first. -/
def takeBits (stream : ByteArray) : Nat → BitReader Nat
  | 0 => return 0
  | count + 1 => do
    let low ← takeBit stream
    let high ← takeBits stream count
    return low + 2 * high

/-! ### Prefix codes -/

/-- A canonical prefix code: how many words there are of each length from one to fifteen, and the
symbols in the order of their words. -/
structure PrefixCode where
  counts : List Nat
  symbols : Array Nat
  deriving Repr, DecidableEq

namespace PrefixCode

/-- The length of the longest word. -/
def maxLength : Nat := 15

/-- The code in which symbol `i` has a word of the `i`-th length, none if that is zero. -/
def ofLengths (lengths : List Nat) : PrefixCode :=
  let ofLength (n : Nat) : List Nat :=
    lengths.zipIdx.filterMap fun (length, symbol) => if length = n then some symbol else none
  let groups := (List.range maxLength).map fun n => ofLength (n + 1)
  { counts := groups.map List.length
    symbols := groups.flatten.toArray }

/-- The part of all words of fifteen bits that the code covers. -/
def coverage (code : PrefixCode) : Nat :=
  code.counts.foldl (fun sum count => 2 * sum + count) 0

/-- How many words of the maximal length there are. -/
def wordCount : Nat := 32768

/-- Whether no further word fits, and none is too many. -/
def isComplete (code : PrefixCode) : Bool := code.coverage == wordCount

/-- Whether the code may be used for symbols of a block. -/
def isUsable (code : PrefixCode) : Bool :=
  code.isComplete || code.symbols.isEmpty || code.counts == 1 :: List.replicate (maxLength - 1) 0

/-- Takes the rest of a word.  Of the words of the next length, `first` is the number of the first
one, and `index` counts the symbols with shorter words; `word` holds the bits so far. -/
def takeWord (stream : ByteArray) (code : PrefixCode) (word first index : Nat) :
    List Nat → BitReader Nat
  | [] => throw .corruptDeflate
  | count :: longer => do
    let bit ← takeBit stream
    let word := 2 * word + bit
    let first := 2 * first
    if word < first + count then
      match code.symbols[index + (word - first)]? with
      | some symbol => return symbol
      | none => throw .corruptDeflate
    else if code.symbols.size ≤ index + count then throw .corruptDeflate
    else takeWord stream code word (first + count) (index + count) longer

/-- Takes a word, and gives its symbol. -/
def takeSymbol (stream : ByteArray) (code : PrefixCode) : BitReader Nat :=
  code.takeWord stream 0 0 0 code.counts

end PrefixCode

/-- The two codes of a compressed block. -/
structure BlockCodes where
  literals : PrefixCode
  distances : PrefixCode
  deriving Repr, DecidableEq

/-- The codes of blocks that bring none of their own. -/
def fixedCodes : BlockCodes :=
  { literals := PrefixCode.ofLengths
      (List.replicate 144 8 ++ List.replicate 112 9 ++ List.replicate 24 7 ++ List.replicate 8 8)
    distances := PrefixCode.ofLengths (List.replicate 32 5) }

/-- The order in which the lengths of the code for code lengths are given. -/
def lengthOrder : List Nat :=
  [16, 17, 18, 0, 8, 7, 9, 6, 10, 5, 11, 4, 12, 3, 13, 2, 14, 1, 15]

/-- Takes the lengths of the code for code lengths, in their own order. -/
def takeLengthLengths (stream : ByteArray) : List Nat → BitReader (List (Nat × Nat))
  | [] => return []
  | symbol :: rest => do
    let length ← takeBits stream 3
    return (symbol, length) :: (← takeLengthLengths stream rest)

/-- Takes code lengths until there are `wanted` of them; `done` holds them in reverse. -/
def takeLengths (stream : ByteArray) (code : PrefixCode) (wanted : Nat) :
    Nat → List Nat → BitReader (List Nat)
  | 0, _ => throw .corruptDeflate
  | fuel + 1, done =>
    if done.length > wanted then throw .corruptDeflate
    else if done.length = wanted then return done.reverse
    else do
      let symbol ← code.takeSymbol stream
      if symbol < 16 then takeLengths stream code wanted fuel (symbol :: done)
      else if symbol = 16 then
        match done with
        | [] => throw .corruptDeflate
        | last :: _ => do
          let times ← takeBits stream 2
          takeLengths stream code wanted fuel (List.replicate (times + 3) last ++ done)
      else do
        let times ← if symbol = 17 then (· + 3) <$> takeBits stream 3
          else (· + 11) <$> takeBits stream 7
        takeLengths stream code wanted fuel (List.replicate times 0 ++ done)

/-- Takes the codes that a block brings along. -/
def takeCodes (stream : ByteArray) : BitReader BlockCodes := do
  let literals := (← takeBits stream 5) + 257
  let distances := (← takeBits stream 5) + 1
  let given := (← takeBits stream 4) + 4
  if literals > 286 ∨ distances > 30 then throw .corruptDeflate
  let pairs ← takeLengthLengths stream (lengthOrder.take given)
  let code := PrefixCode.ofLengths ((List.range 19).map fun i => (pairs.lookup i).getD 0)
  if !code.isComplete then throw .corruptDeflate
  let wanted := literals + distances
  let lengths ← takeLengths stream code wanted (wanted + 1) []
  let codes : BlockCodes :=
    { literals := PrefixCode.ofLengths (lengths.take literals)
      distances := PrefixCode.ofLengths (lengths.drop literals) }
  if codes.literals.isUsable && codes.distances.isUsable then return codes
  else throw .corruptDeflate

/-! ### Blocks -/

/-- The least length of a repetition and the number of extra bits, for each length symbol from 257
on. -/
def lengthClasses : Array (Nat × Nat) :=
  #[(3, 0), (4, 0), (5, 0), (6, 0), (7, 0), (8, 0), (9, 0), (10, 0), (11, 1), (13, 1), (15, 1),
    (17, 1), (19, 2), (23, 2), (27, 2), (31, 2), (35, 3), (43, 3), (51, 3), (59, 3), (67, 4),
    (83, 4), (99, 4), (115, 4), (131, 5), (163, 5), (195, 5), (227, 5), (258, 0)]

/-- The least distance of a repetition and the number of extra bits, for each distance symbol. -/
def distanceClasses : Array (Nat × Nat) :=
  #[(1, 0), (2, 0), (3, 0), (4, 0), (5, 1), (7, 1), (9, 2), (13, 2), (17, 3), (25, 3), (33, 4),
    (49, 4), (65, 5), (97, 5), (129, 6), (193, 6), (257, 7), (385, 7), (513, 8), (769, 8),
    (1025, 9), (1537, 9), (2049, 10), (3073, 10), (4097, 11), (6145, 11), (8193, 12), (12289, 12),
    (16385, 13), (24577, 13)]

/-- Takes the number that a class and its extra bits stand for. -/
def takeClass (stream : ByteArray) (classes : Array (Nat × Nat)) (symbol : Nat) :
    BitReader Nat :=
  match classes[symbol]? with
  | some (least, bits) => (least + ·) <$> takeBits stream bits
  | none => throw .corruptDeflate

/-- Repeats what was written `distance` bytes before, so many bytes long. -/
def repeatBack (distance : Nat) : Nat → ByteArray → ByteArray
  | 0, out => out
  | length + 1, out =>
    let byte := if distance ≤ out.size then byteAt out (out.size - distance) else 0
    repeatBack distance length (out.push byte)

/-- Takes the rest of a compressed block. -/
def takeCompressed (stream : ByteArray) (codes : BlockCodes) :
    Nat → ByteArray → BitReader ByteArray
  | 0, _ => throw .corruptDeflate
  | fuel + 1, out => do
    let symbol ← codes.literals.takeSymbol stream
    if symbol < 256 then takeCompressed stream codes fuel (out.push (UInt8.ofNat symbol))
    else if symbol = 256 then return out
    else
      let length ← takeClass stream lengthClasses (symbol - 257)
      let distance ← takeClass stream distanceClasses (← codes.distances.takeSymbol stream)
      takeCompressed stream codes fuel (repeatBack distance length out)

/-- Takes the rest of a stored block, which starts with the next whole byte. -/
def takeStored (stream : ByteArray) (out : ByteArray) : BitReader ByteArray := fun position =>
  let start := (position + 7) / 8
  if start + 4 > stream.size then .error .incompleteDeflate
  else
    let length := numberAt stream start 2
    if length + numberAt stream (start + 2) 2 ≠ 0xFFFF then .error .corruptDeflate
    else if start + 4 + length > stream.size then .error .incompleteDeflate
    else .ok (out ++ slice stream (start + 4) length, 8 * (start + 4 + length))

/-- Takes blocks up to the last one. -/
def takeBlocks (stream : ByteArray) : Nat → ByteArray → BitReader ByteArray
  | 0, _ => throw .corruptDeflate
  | fuel + 1, out => do
    let last ← takeBit stream
    let kind ← takeBits stream 2
    let out ← match kind with
      | 0 => takeStored stream out
      | 1 => takeCompressed stream fixedCodes (8 * stream.size + 1) out
      | 2 => do
        let codes ← takeCodes stream
        takeCompressed stream codes (8 * stream.size + 1) out
      | _ => throw .corruptDeflate
    if last = 1 then return out else takeBlocks stream fuel out

/-- The content of a deflated stream. -/
def inflate (stream : ByteArray) : Except IoError ByteArray :=
  (takeBlocks stream (8 * stream.size + 1) ByteArray.empty).run' 0

/-! ### Writing -/

/-- The largest content of a stored block. -/
def maxStored : Nat := 65535

/-- The stored blocks of a content from a place on. -/
def storedFrom (content : ByteArray) (place : Nat) : Nat → ByteArray → ByteArray
  | 0, out => out
  | fuel + 1, out =>
    let block := slice content place maxStored
    let isLast := content.size ≤ place + block.size
    let header := (if isLast then 1 else 0) :: littleEndian 2 block.size
      ++ littleEndian 2 (0xFFFF - block.size)
    let out := out ++ ofOctets header ++ block
    if isLast then out else storedFrom content (place + block.size) fuel out

/-- A deflated stream of stored blocks. -/
def deflateStored (content : ByteArray) : ByteArray :=
  storedFrom content 0 (content.size + 1) ByteArray.empty

end ClassNaming.Archive
