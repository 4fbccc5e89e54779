import ClassNaming.ClassFile.Cursor

/-!
# Annotations

The payload of an annotation attribute is a counted list of annotations.  An annotation has a type
and a counted list of named values; a value is a constant, an enumeration constant, a class, an
annotation again, or a counted list of values.  All names, types and constants are indices of the
constant pool, which are not followed here.

## Main Definitions

* `ElementValue`, `AnnotationInfo` - the decoded payload
* `AnnotationInfo.parseAll`, `AnnotationInfo.encodeAll` - the codec of a payload

## Design Notes

Values nest, and each level of nesting takes at least one byte.  The reader therefore recurses on a
bound for the depth, which `AnnotationInfo.parseAll` takes from the length of the payload.
-/

namespace ClassNaming

/-- The value of an annotation element. -/
inductive ElementValue where
  /-- A number, a truth value, a character or a text, as its tag tells. -/
  | const (tag : UInt8) (index : UInt16)
  | enum (typeName constName : UInt16)
  | classInfo (index : UInt16)
  | nested (typeIndex : UInt16) (elements : List (UInt16 × ElementValue))
  | array (values : List ElementValue)
  deriving Inhabited, Repr

/-- An annotation: its type, and its values with their names. -/
structure AnnotationInfo where
  typeIndex : UInt16
  elements : List (UInt16 × ElementValue)
  deriving Repr

namespace ElementValue

/-- The tag of a text constant, the letter `s`. -/
def stringTag : UInt8 := 115

/-- The tags of constants, the letters `B C D F I J S Z s`. -/
def constTags : List UInt8 := [66, 67, 68, 70, 73, 74, 83, 90, 115]

/-- The index of the text, if the value is one. -/
def stringIndex? : ElementValue → Option UInt16
  | const tag index => if tag = stringTag then some index else none
  | _ => none

/-- The bytes of a value. -/
def write : ElementValue → List UInt8
  | const tag index => tag :: writeU16 index
  | enum typeName constName => 101 :: writeU16 typeName ++ writeU16 constName
  | classInfo index => 99 :: writeU16 index
  | nested typeIndex elements =>
    64 :: writeU16 typeIndex ++ writeU16 (UInt16.ofNat elements.length) ++ writeElements elements
  | array values => 91 :: writeU16 (UInt16.ofNat values.length) ++ writeValues values
where
  /-- The bytes of values, one after the other. -/
  writeValues : List ElementValue → List UInt8
    | [] => []
    | value :: rest => write value ++ writeValues rest
  /-- The bytes of named values, one after the other. -/
  writeElements : List (UInt16 × ElementValue) → List UInt8
    | [] => []
    | (name, value) :: rest => writeU16 name ++ write value ++ writeElements rest

/-- Reads a name, and a value by the given reader. -/
def readElement (readValue : Reader ElementValue) : Reader (UInt16 × ElementValue) := do
  let name ← readU16
  let value ← readValue
  return (name, value)

/-- Reads a value that nests at most `depth` levels deep. -/
def read : Nat → Reader ElementValue
  | 0 => fun cursor => .error (.unexpectedEnd cursor.offset 1)
  | depth + 1 => do
    let tag ← readU8
    if constTags.contains tag then const tag <$> readU16
    else if tag = 101 then do
      let typeName ← readU16
      enum typeName <$> readU16
    else if tag = 99 then classInfo <$> readU16
    else if tag = 64 then do
      let typeIndex ← readU16
      nested typeIndex <$> readCounted (readElement (read depth))
    else if tag = 91 then array <$> readCounted (read depth)
    else throw (.unknownElementTag tag)

end ElementValue

namespace AnnotationInfo

/-- The bytes of an annotation. -/
def write (a : AnnotationInfo) : List UInt8 :=
  writeU16 a.typeIndex ++ writeU16 (UInt16.ofNat a.elements.length)
    ++ ElementValue.write.writeElements a.elements

/-- The bytes of an annotation payload. -/
def encodeAll (annotations : List AnnotationInfo) : List UInt8 :=
  writeCounted write annotations

/-- Reads an annotation whose values nest at most `depth` levels deep. -/
def read (depth : Nat) : Reader AnnotationInfo := do
  let typeIndex ← readU16
  let elements ← readCounted (ElementValue.readElement (ElementValue.read depth))
  return { typeIndex, elements }

/-- Decodes an annotation payload. -/
def parseAll (info : List UInt8) : Except ClassFileError (List AnnotationInfo) :=
  (readCounted (read (info.length + 1))).readAll info

end AnnotationInfo

end ClassNaming
