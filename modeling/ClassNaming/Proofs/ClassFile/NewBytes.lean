import ClassNaming.Proofs.ClassFile.Renaming
import ClassNaming.Proofs.ClassFile.RoundTrip

/-!
# Renamed classes are new

A class counts as renamed only if a text changes, and then its bytes change.  As long as the pool
has room that is so because the bytes can be decoded again: the details of the class point to other
texts than before.

A pool beyond its limit does not grow, and all new texts may be found in it.  Such a class is
written with a count field that has run over, which is not what was read.

## Main Results

* `renameClass_ne` - the bytes of a renamed class are not the old ones
-/

namespace ClassNaming

variable {renamer : Renamer}

/-- A member that was exchanged is the old one if the list is. -/
theorem eq_of_modify_eq {α : Type} {f : α → α} {values : List α} {i : Nat} {value : α}
    (same : values.modify i f = values) (there : values[i]? = some value) : f value = value := by
  have member : (values.modify i f)[i]? = values[i]? := congrArg (·[i]?) same
  rw [List.getElem?_modify_eq, there] at member
  exact Option.some.inj member

namespace ConstantPool

variable {pool pool' : ConstantPool}

/-- Where there is no room left, texts are only found. -/
theorem intern_of_full {text : String} {index : UInt16} (full : maxSlots < pool.slots.size)
    (interning : pool.intern text = .ok (index, pool')) : pool' = pool := by
  have noRoom : pool.hasRoom (.utf8 (ModifiedUtf8.encode text)) = false := by
    unfold hasRoom
    rw [decide_eq_false_iff_not]
    omega
  unfold intern at interning
  dsimp only at interning
  split at interning
  · cases interning
  · split at interning
    · cases interning
      rfl
    · unfold push at interning
      rw [noRoom] at interning
      cases interning

theorem retarget_of_full {done values values' : List ElementValue} {texts : List (String × String)}
    (full : maxSlots < pool.slots.size)
    (moved : pool.retarget done values texts = .ok (values', pool')) : pool' = pool := by
  induction values generalizing done texts with
  | nil =>
    unfold retarget at moved
    cases moved
    rfl
  | cons value rest ih =>
    cases texts with
    | nil =>
      unfold retarget at moved
      cases moved
      rfl
    | cons text texts =>
      rw [retarget] at moved
      split at moved
      · exact ih moved
      · split at moved
        · cases moved
        case h_2 index between interning =>
          obtain rfl := intern_of_full full interning
          exact ih moved

end ConstantPool

namespace ClassFile

variable {c c' : ClassFile}

/-- The details of a class stand in one place. -/
theorem DetailsAt.values_eq {position i j : Nat} {annotations : List AnnotationInfo}
    {values values' : List ElementValue} (details : c.DetailsAt position annotations i j values)
    (same : replaceDetails i j values' annotations = annotations) : values' = values := by
  obtain ⟨a, there, -, name, array⟩ := details.firstElement
  have elements := congrArg AnnotationInfo.elements (eq_of_modify_eq same there)
  have element := congrArg Prod.snd (eq_of_modify_eq elements array)
  exact ElementValue.array.inj element

/-- A class is not renamed to itself as long as its pool has room. -/
theorem ne_of_rename (bound : c.pool.slots.size ≤ ConstantPool.maxSlots)
    (renamed : (c.rename renamer).run = some (.ok (.ok c'))) : c' ≠ c := by
  rintro rfl
  obtain ⟨position, annotations, i, j, values, values', old, new, steps⟩ :=
    steps_of_rename renamed
  have change := steps.renamedFrom bound
  obtain ⟨a, there, parsed⟩ := steps.payload
  -- The payload is the old one, so the values are.
  have payload : AnnotationInfo.encodeAll (replaceDetails i j values' annotations) = a.info := by
    exact congrArg Attribute.info (eq_of_modify_eq change.attributes_eq.symm there)
  have decoded := change.parseAll
  rw [payload, parsed] at decoded
  obtain rfl := change.details.values_eq (Except.ok.inj decoded).symm
  -- So every text is its own new one.
  obtain ⟨_, rfl, read⟩ := ConstantPool.valueTextsFrom?_eq_some steps.texts
  obtain ⟨count, each⟩ := List.forall₂_iff_get.mp read
  obtain ⟨size, renames⟩ :=
    List.forall₂_iff_get.mp (Renamer.mapM_rename_eq_some_iff.mp steps.renames)
  refine steps.differs (List.ext_getElem size.symm fun k inside inside' => ?_)
  have text := each k (count ▸ inside') inside'
  obtain ⟨old, new, value, held, renamed, there, now, -⟩ :=
    change.answers.answer k _ (List.getElem?_eq_getElem (count ▸ inside'))
  obtain rfl := Option.some.inj ((List.getElem?_eq_getElem (count ▸ inside')).symm.trans there)
  obtain rfl := Option.some.inj (held.symm.trans text)
  exact (Option.some.inj ((renames k inside' inside).symm.trans renamed)).trans
    (Option.some.inj (now.symm.trans held))

end ClassFile

/-- **A renamed class is not the old one.** -/
theorem renameClass_ne {bytes out : List UInt8}
    (renamed : renameClass renamer bytes = some (.ok (.renamed out))) : out ≠ bytes := by
  rintro rfl
  cases parsed : ClassFile.parse out with
  | error e =>
    rw [renameClass_of_unparsed parsed] at renamed
    cases renamed
  | ok c =>
    obtain ⟨c', rename, written⟩ := exists_of_renameClass_renamed parsed renamed
    obtain ⟨writable, count, announced, read⟩ := ClassFile.bytes_of_parse parsed
    by_cases bound : c.pool.slots.size ≤ ConstantPool.maxSlots
    · obtain ⟨_, _, _, _, _, _, change⟩ := ClassFile.rename_eq_ok bound rename
      have again := ClassFile.parse_toBytes_eq (change.writable writable) change.bound
      rw [written, parsed] at again
      exact ClassFile.ne_of_rename bound rename (Except.ok.inj again).symm
    · obtain ⟨_, _, _, _, _, _, _, _, steps⟩ := ClassFile.steps_of_rename rename
      have pool := ConstantPool.retarget_of_full (Nat.not_le.mp bound) steps.moved
      -- The count that was read is that of the slots, and the one written is zero.
      have size : c.pool.slots.size = count.toNat := by
        have small := count.toNat_lt
        unfold ConstantPool.maxSlots at bound
        cases announced with
        | exact size => omega
        | zero none empty => omega
        | overhang wide ends size => exact size
      have same : writeU16 c'.pool.count = writeU16 count := by
        rw [← ClassFile.countField_bytesWith _ c', ← ClassFile.toBytes_eq, written, read,
          ClassFile.countField_bytesWith]
      have run := congrArg UInt16.toNat (ClassFile.writeU16_injective same)
      rw [pool, ← size, ConstantPool.count, UInt16.toNat_ofNat'] at run
      have small := count.toNat_lt
      unfold ConstantPool.maxSlots at bound
      omega

end ClassNaming
