import ClassNaming.Proofs.ClassFile.Annotation

/-!
# Round trips of annotation payloads

The reader of a payload recurses on a bound for the depth, so the laws of its codec speak of values
that nest at most so deep.  Which annotations can be written is said here without such a bound:
every list fits its count, at every depth, and every constant has a known tag.

The bound that a payload gets from its own length is no restriction.  A value starts with a tag, so
what it holds takes fewer bytes than the value itself, and its depth is at most its size.

## Main Definitions

* `ElementValue.Encodable`, `AnnotationInfo.Encodable` - values and annotations that can be written

## Main Results

* `AnnotationInfo.counted_fits_iff` - the bound for the depth is no restriction
* `AnnotationInfo.parseAll_iff_encodable` - a payload is decoded to what it is the code of, and to
  nothing else
-/

namespace ClassNaming

namespace ElementValue

/-- A value of which every list has at most 65535 members and every constant a known tag, at every
depth. -/
inductive Encodable : ElementValue → Prop
  | const {tag : UInt8} {index : UInt16} (known : tag ∈ constTags) : Encodable (const tag index)
  | enum (typeName constName : UInt16) : Encodable (enum typeName constName)
  | classInfo (index : UInt16) : Encodable (classInfo index)
  | nested {typeIndex : UInt16} {elements : List (UInt16 × ElementValue)}
      (short : elements.length ≤ 65535) (each : ∀ element ∈ elements, Encodable element.2) :
      Encodable (nested typeIndex elements)
  | array {values : List ElementValue} (short : values.length ≤ 65535)
      (each : ∀ value ∈ values, Encodable value) : Encodable (array values)

theorem length_le_length_flatMap {α : Type} (write : α → List UInt8) {values : List α} {value : α}
    (mem : value ∈ values) : (write value).length ≤ (values.flatMap write).length := by
  rw [List.flatMap_def]
  exact (List.sublist_flatten_of_mem (List.mem_map_of_mem mem)).length_le

/-- A value takes a byte for its tag. -/
theorem exists_depth_of_length_le {value : ElementValue} {depth : Nat}
    (enough : value.write.length ≤ depth) : ∃ inner, depth = inner + 1 := by
  have tag : 0 < value.write.length := by cases value <;> simp [write]
  exact Nat.exists_eq_add_one.mpr (Nat.lt_of_lt_of_le tag enough)

/-- A value nests no deeper than it takes bytes: what it holds stands behind its tag. -/
theorem Encodable.fits {value : ElementValue} (encodable : value.Encodable) {depth : Nat}
    (enough : value.write.length ≤ depth) : Fits depth value := by
  induction encodable generalizing depth with
  | const known =>
    obtain ⟨inner, rfl⟩ := exists_depth_of_length_le enough
    exact known
  | enum typeName constName =>
    obtain ⟨inner, rfl⟩ := exists_depth_of_length_le enough
    exact trivial
  | classInfo index =>
    obtain ⟨inner, rfl⟩ := exists_depth_of_length_le enough
    exact trivial
  | nested short each ih =>
    obtain ⟨inner, rfl⟩ := exists_depth_of_length_le enough
    rw [write_nested, writeCounted] at enough
    refine ⟨short, fun element mem => ih element mem ?_⟩
    have inside := length_le_length_flatMap writeElement mem
    simp only [writeElement, List.length_append, List.length_cons] at inside enough
    omega
  | array short each ih =>
    obtain ⟨inner, rfl⟩ := exists_depth_of_length_le enough
    rw [write_array, writeCounted] at enough
    refine ⟨short, fun value mem => ih value mem ?_⟩
    have inside := length_le_length_flatMap write mem
    simp only [List.length_append, List.length_cons] at enough
    omega

/-- What fits for some depth can be written. -/
theorem Fits.encodable {depth : Nat} {value : ElementValue} (fits : Fits depth value) :
    value.Encodable := by
  induction depth generalizing value with
  | zero => exact fits.elim
  | succ depth ih =>
    cases value with
    | const tag index => exact .const fits
    | enum typeName constName => exact .enum typeName constName
    | classInfo index => exact .classInfo index
    | nested typeIndex elements =>
      obtain ⟨short, each⟩ := fits
      exact .nested short fun element mem => ih (each element mem)
    | array values =>
      obtain ⟨short, each⟩ := fits
      exact .array short fun value mem => ih (each value mem)

end ElementValue

namespace AnnotationInfo

/-- An annotation of which every list has at most 65535 members and every constant a known tag, at
every depth. -/
def Encodable (a : AnnotationInfo) : Prop :=
  Counted (fun element => element.2.Encodable) a.elements

theorem Encodable.fits {a : AnnotationInfo} (encodable : a.Encodable) {depth : Nat}
    (enough : a.write.length ≤ depth) : Fits depth a := by
  obtain ⟨short, each⟩ := encodable
  rw [write_eq, writeCounted] at enough
  refine ⟨short, fun element mem => (each element mem).fits ?_⟩
  have inside := ElementValue.length_le_length_flatMap ElementValue.writeElement mem
  simp only [ElementValue.writeElement, List.length_append] at inside enough
  omega

theorem Fits.encodable {depth : Nat} {a : AnnotationInfo} (fits : Fits depth a) : a.Encodable :=
  ⟨fits.1, fun element mem => (fits.2 element mem).encodable⟩

/-- In the payload of annotations that can be written, the bound for the depth is never reached. -/
theorem counted_fits_iff {annotations : List AnnotationInfo} :
    Counted (Fits ((encodeAll annotations).length + 1)) annotations ↔
      Counted Encodable annotations := by
  refine and_congr_right fun _ => forall₂_congr fun a mem => ⟨Fits.encodable, fun encodable => ?_⟩
  have inside := ElementValue.length_le_length_flatMap write mem
  refine encodable.fits ?_
  rw [encodeAll, writeCounted, List.length_append]
  omega

/-- **Payloads are coded one-to-one**: what annotations are written as is decoded to them again if
they can be written, and a payload that is decoded at all is what its annotations are written as. -/
theorem parseAll_iff_encodable {info : List UInt8} {annotations : List AnnotationInfo} :
    parseAll info = .ok annotations ↔
      Counted Encodable annotations ∧ info = encodeAll annotations := by
  rw [parseAll_eq_ok_iff]
  constructor
  · rintro ⟨fits, rfl⟩
    exact ⟨counted_fits_iff.mp fits, rfl⟩
  · rintro ⟨encodable, rfl⟩
    exact ⟨counted_fits_iff.mpr encodable, rfl⟩

end AnnotationInfo

end ClassNaming
