import ClassNaming.ClassFile.Annotation
import ClassNaming.Proofs.ClassFile.Cursor

/-!
# Laws of the annotation codec

Values nest, and the reader recurses on a bound for the depth.  The laws follow that recursion: for
each depth there is a codec, and it carries the predicate that a value nests no deeper, that its
lists fit their counts and that its constants have known tags.

## Main Definitions

* `ElementValue.Fits` - a value that nests at most so deep and can be written

## Main Results

* `ElementValue.codec`, `AnnotationInfo.codec` - values and annotations, for each depth
* `AnnotationInfo.parseAll_eq_ok_iff` - payloads
-/

namespace ClassNaming

namespace ElementValue

/-- A value that nests at most so deep, whose lists fit their counts and whose constants have known
tags. -/
def Fits : Nat → ElementValue → Prop
  | 0, _ => False
  | _ + 1, const tag _ => tag ∈ constTags
  | _ + 1, enum _ _ => True
  | _ + 1, classInfo _ => True
  | depth + 1, nested _ elements => Counted (fun element => Fits depth element.2) elements
  | depth + 1, array values => Counted (Fits depth) values

/-- The bytes of a named value. -/
def writeElement (element : UInt16 × ElementValue) : List UInt8 :=
  writeU16 element.1 ++ write element.2

theorem writeValues_eq (values : List ElementValue) :
    write.writeValues values = values.flatMap write := by
  induction values with
  | nil => rfl
  | cons value rest ih => rw [write.writeValues, ih, List.flatMap_cons]

theorem writeElements_eq (elements : List (UInt16 × ElementValue)) :
    write.writeElements elements = elements.flatMap writeElement := by
  induction elements with
  | nil => rfl
  | cons element rest ih => rw [write.writeElements, ih, List.flatMap_cons, writeElement]

theorem write_array (values : List ElementValue) :
    write (array values) = 91 :: writeCounted write values := by
  rw [write, writeValues_eq, writeCounted]
  rfl

theorem write_nested (typeIndex : UInt16) (elements : List (UInt16 × ElementValue)) :
    write (nested typeIndex elements) =
      64 :: (writeU16 typeIndex ++ writeCounted writeElement elements) := by
  rw [write, writeElements_eq, writeCounted]
  simp

/-- Named values. -/
theorem elementCodec {readValue : Reader ElementValue} {Small : ElementValue → Prop}
    (codec : Codec readValue write Small) :
    Codec (readElement readValue) writeElement (fun element => Small element.2) where
  decodes element small :=
    (Codec.u16.decodes element.1 trivial).bind
      ((codec.decodes element.2 small).bind_pure (Prod.mk element.1))
  encodes cursor element behind found := by
    obtain ⟨name, _, readName, found⟩ := Reader.bind_eq_ok.mp found
    obtain ⟨value, _, readValue, same⟩ := Reader.bind_eq_ok.mp found
    obtain ⟨rfl, rfl⟩ := Reader.pure_eq_ok.mp same
    obtain ⟨small, back⟩ := codec.encodes _ _ _ readValue
    refine ⟨small, ?_⟩
    rw [(Codec.u16.encodes _ _ _ readName).2, back, writeElement, List.append_assoc]

/-- A value is read back from its bytes. -/
theorem reads_write (depth : Nat) (codec : Codec (read depth) write (Fits depth))
    (value : ElementValue) (fits : Fits (depth + 1) value) :
    Reads (read (depth + 1)) value value.write := by
  cases value with
  | const tag index =>
    refine (Codec.u8.decodes tag trivial).bind ?_
    rw [if_pos (List.contains_iff_mem.mpr fits)]
    exact (Codec.u16.decodes index trivial).map (const tag)
  | enum typeName constName =>
    refine (Codec.u8.decodes 101 trivial).bind ?_
    exact (Codec.u16.decodes typeName trivial).bind
      ((Codec.u16.decodes constName trivial).map (enum typeName))
  | classInfo index =>
    refine (Codec.u8.decodes 99 trivial).bind ?_
    exact (Codec.u16.decodes index trivial).map classInfo
  | nested typeIndex elements =>
    rw [write_nested]
    refine (Codec.u8.decodes 64 trivial).bind ?_
    exact (Codec.u16.decodes typeIndex trivial).bind
      (((elementCodec codec).counted.decodes elements fits).map (nested typeIndex))
  | array values =>
    rw [write_array]
    refine (Codec.u8.decodes 91 trivial).bind ?_
    exact (codec.counted.decodes values fits).map array

/-- What a value was read from is what it is written as. -/
theorem encodes_read (depth : Nat) (codec : Codec (read depth) write (Fits depth))
    {cursor behind : Cursor} {value : ElementValue}
    (found : read (depth + 1) cursor = .ok (value, behind)) :
    Fits (depth + 1) value ∧ cursor.rest = value.write ++ behind.rest := by
  obtain ⟨tag, between, readTag, found⟩ := Reader.bind_eq_ok.mp found
  rw [(Codec.u8.encodes _ _ _ readTag).2]
  split at found
  case isTrue known =>
    obtain ⟨index, readIndex, rfl⟩ := Reader.map_eq_ok.mp found
    rw [(Codec.u16.encodes _ _ _ readIndex).2]
    exact ⟨List.contains_iff_mem.mp known, rfl⟩
  split at found
  case isTrue _ same =>
    obtain ⟨typeName, _, readType, found⟩ := Reader.bind_eq_ok.mp found
    obtain ⟨constName, readConst, rfl⟩ := Reader.map_eq_ok.mp found
    rw [(Codec.u16.encodes _ _ _ readType).2, (Codec.u16.encodes _ _ _ readConst).2, same, write]
    exact ⟨trivial, by simp⟩
  split at found
  case isTrue _ _ same =>
    obtain ⟨index, readIndex, rfl⟩ := Reader.map_eq_ok.mp found
    rw [(Codec.u16.encodes _ _ _ readIndex).2, same, write]
    exact ⟨trivial, by simp⟩
  split at found
  case isTrue _ _ _ same =>
    obtain ⟨typeIndex, _, readType, found⟩ := Reader.bind_eq_ok.mp found
    obtain ⟨elements, readElements, rfl⟩ := Reader.map_eq_ok.mp found
    obtain ⟨fits, back⟩ := (elementCodec codec).counted.encodes _ _ _ readElements
    rw [(Codec.u16.encodes _ _ _ readType).2, back, same, write_nested]
    exact ⟨fits, by simp⟩
  split at found
  case isTrue _ _ _ _ same =>
    obtain ⟨values, readValues, rfl⟩ := Reader.map_eq_ok.mp found
    obtain ⟨fits, back⟩ := codec.counted.encodes _ _ _ readValues
    rw [back, same, write_array]
    exact ⟨fits, by simp⟩
  case isFalse => cases found

/-- Values, for each depth. -/
theorem codec (depth : Nat) : Codec (read depth) write (Fits depth) := by
  induction depth with
  | zero => exact ⟨fun _ impossible => impossible.elim, fun _ _ _ impossible => by cases impossible⟩
  | succ depth ih => exact ⟨reads_write depth ih, fun _ _ _ found => encodes_read depth ih found⟩

end ElementValue

namespace AnnotationInfo

/-- An annotation whose values nest at most so deep. -/
def Fits (depth : Nat) (a : AnnotationInfo) : Prop :=
  Counted (fun element => ElementValue.Fits depth element.2) a.elements

theorem write_eq (a : AnnotationInfo) :
    a.write = writeU16 a.typeIndex ++ writeCounted ElementValue.writeElement a.elements := by
  rw [write, ElementValue.writeElements_eq, writeCounted, List.append_assoc]

/-- Annotations, for each depth. -/
theorem codec (depth : Nat) : Codec (read depth) write (Fits depth) where
  decodes a fits := by
    rw [write_eq]
    have elements :=
      (ElementValue.elementCodec (ElementValue.codec depth)).counted.decodes a.elements fits
    exact (Codec.u16.decodes a.typeIndex trivial).bind
      (elements.bind_pure (AnnotationInfo.mk a.typeIndex))
  encodes cursor a behind found := by
    obtain ⟨typeIndex, _, readType, found⟩ := Reader.bind_eq_ok.mp found
    obtain ⟨elements, _, readElements, same⟩ := Reader.bind_eq_ok.mp found
    obtain ⟨rfl, rfl⟩ := Reader.pure_eq_ok.mp same
    obtain ⟨fits, back⟩ :=
      (ElementValue.elementCodec (ElementValue.codec depth)).counted.encodes _ _ _ readElements
    refine ⟨fits, ?_⟩
    rw [(Codec.u16.encodes _ _ _ readType).2, back, write_eq, List.append_assoc]

/-- A payload is decoded to the annotations that it is the code of. -/
theorem parseAll_eq_ok_iff {info : List UInt8} {annotations : List AnnotationInfo} :
    parseAll info = .ok annotations ↔
      Counted (Fits (info.length + 1)) annotations ∧ info = encodeAll annotations :=
  (codec (info.length + 1)).counted.readAll_eq_ok_iff

end AnnotationInfo

end ClassNaming
