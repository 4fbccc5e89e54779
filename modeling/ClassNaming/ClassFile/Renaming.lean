import ClassNaming.ClassFile.Annotation
import ClassNaming.ClassFile.Basic
import ClassNaming.Detail.Renamer

/-!
# Renaming the details of a class

The compiler leaves a metadata annotation on a class, of which the element `d2` is an array of
details.  A class changes if renaming changes at least one of them.  Only the array changes: a
detail that changed points to a text that is found in the pool or appended to it, every other
constant keeps its index, and a detail that did not change keeps pointing where it did.

Only the first annotation attribute, the first metadata annotation in it, and the first `d2` element
of that annotation are looked at.

All details are renamed before the first new text goes into the pool.  If renaming one of them never
comes to an end, there is no verdict on the class.

## Main Definitions

* `Kept` - why a class is left as it is
* `ClassVerdict` - what became of a class
* `renameClass` - the verdict on the bytes of a class
-/

namespace ClassNaming

/-- The attribute that holds the annotations of a class. -/
def annotationsAttribute : String := "RuntimeVisibleAnnotations"

/-- The type of the metadata annotation. -/
def metadataDescriptor : String := "Lkotlin/Metadata;"

/-- The element of the metadata annotation that holds the details. -/
def detailsKey : String := "d2"

/-- Why a class is left as it is. -/
inductive Kept where
  /-- It has no annotation attribute. -/
  | noAnnotations
  /-- No annotation is the metadata annotation. -/
  | noMetadata
  /-- The metadata annotation has no details. -/
  | noDetails
  /-- The details are no array. -/
  | notArray
  /-- The array holds something that is no text. -/
  | notText
  /-- Renaming changes none of them. -/
  | sameDetails
  deriving Repr, DecidableEq

/-- What became of a class. -/
inductive ClassVerdict where
  | kept (why : Kept)
  | renamed (bytes : List UInt8)
  deriving Repr, DecidableEq

/-- What is worth telling about a class that was kept. -/
def Kept.remark? : Kept → Option String
  | notArray => some ("metadata " ++ detailsKey ++ " is not an array")
  | notText => some ("metadata " ++ detailsKey ++ " holds a non-string element")
  | _ => none

/-- The text that a value points to, if it points to one. -/
def ConstantPool.valueText? (pool : ConstantPool) (value : ElementValue) : Option String :=
  match value.stringIndex? with
  | none => none
  | some index =>
    match pool.text index with
    | .ok text => some text
    | .error _ => none

/-- The texts that all the values point to; `done` holds the texts so far, in reverse. -/
def ConstantPool.valueTextsFrom? (pool : ConstantPool) (done : List String) :
    List ElementValue → Option (List String)
  | [] => some done.reverse
  | value :: rest =>
    match pool.valueText? value with
    | some text => valueTextsFrom? pool (text :: done) rest
    | none => none

/-- Gives each value whose text changes the index of its new text, from left to right.  `texts`
pairs the old texts with the new ones; `done` holds the values so far, in reverse. -/
def ConstantPool.retarget (pool : ConstantPool) (done : List ElementValue) :
    List ElementValue → List (String × String) →
      Except ClassFileError (List ElementValue × ConstantPool)
  | value :: values, (old, new) :: texts =>
    if old = new then retarget pool (value :: done) values texts
    else
      match pool.intern new with
      | .error e => .error e
      | .ok (index, pool) =>
        retarget pool (.const ElementValue.stringTag index :: done) values texts
  | values, _ => .ok (done.reverse ++ values, pool)

/-- The first array of details among decoded annotations, or why there is none. -/
def findDetails (pool : ConstantPool) (annotations : List AnnotationInfo) :
    Except Kept (Nat × Nat × List ElementValue) :=
  match annotations.findIdx? fun a => pool.hasText a.typeIndex metadataDescriptor with
  | none => .error .noMetadata
  | some i =>
    let elements := (annotations[i]?.map AnnotationInfo.elements).getD []
    match elements.findIdx? fun e => pool.hasText e.1 detailsKey with
    | none => .error .noDetails
    | some j =>
      match elements[j]? with
      | some (_, .array values) => .ok (i, j, values)
      | _ => .error .notArray

/-- The annotations with the array of element `j` of annotation `i` exchanged. -/
def replaceDetails (i j : Nat) (values : List ElementValue) (annotations : List AnnotationInfo) :
    List AnnotationInfo :=
  annotations.modify i fun a =>
    { a with elements := a.elements.modify j fun e => (e.1, .array values) }

/-- Renames the details of a class whose annotations have been decoded from the attribute at
`position`. -/
def ClassFile.renameIn (renamer : Renamer) (c : ClassFile) (position : Nat)
    (annotations : List AnnotationInfo) : ExceptT ClassFileError Option (Except Kept ClassFile) :=
  match findDetails c.pool annotations with
  | .error why => return .error why
  | .ok (i, j, values) =>
    match c.pool.valueTextsFrom? [] values with
    | none => return .error .notText
    | some old => do
      let renamed ← (old.mapM renamer.rename : Option (List String))
      if renamed = old then return .error .sameDetails
      let (values, pool) ← c.pool.retarget [] values (old.zip renamed)
      let info := AnnotationInfo.encodeAll (replaceDetails i j values annotations)
      let attributes := c.attributes.modify position fun a => { a with info }
      return .ok { c with pool, attributes }

/-- Renames the details of a decoded class. -/
def ClassFile.rename (renamer : Renamer) (c : ClassFile) :
    ExceptT ClassFileError Option (Except Kept ClassFile) :=
  match c.attributePosition? annotationsAttribute with
  | none => return .error .noAnnotations
  | some position => do
    let info := (c.attributes[position]?.map Attribute.info).getD []
    let annotations ← AnnotationInfo.parseAll info
    c.renameIn renamer position annotations

/-- What becomes of the bytes of a class. -/
def renameClass (renamer : Renamer) (bytes : List UInt8) :
    Option (Except ClassFileError ClassVerdict) := ExceptT.run do
  let c ← ClassFile.parse bytes
  match ← c.rename renamer with
  | .error why => return .kept why
  | .ok renamed => return .renamed renamed.toBytes

end ClassNaming
