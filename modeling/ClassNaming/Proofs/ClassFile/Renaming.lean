import Mathlib.Data.List.Forall2
import ClassNaming.ClassFile.Renaming
import ClassNaming.Proofs.ClassFile.Annotation
import ClassNaming.Proofs.ClassFile.Basic
import ClassNaming.Proofs.Detail.Passes
import ClassNaming.Proofs.Mapping.Table

/-!
# What renaming does to a class

Renaming reads a class, follows its details, appends the texts that are missing, and writes the
class again.  Each of these steps has its law in the modules before; here they are put together.
The three facts that make the new class readable are that the pool grew by text constants only and
stayed below its limit, that the new payload has the length of the old one, and that it nests no
deeper.

## Main Definitions

* `Retargeted` - values of which those with a changed text point to the new one
* `ClassFile.DetailsAt` - where the details of a class stand, and what they point to
* `ClassFile.NamesInside` - a class whose names refer to constants that exist
* `DetailChange` - what changes in a class whose details are renamed

## Main Results

* `ConstantPool.retargeted_of_retarget` - what exchanging the indices does
* `ClassFile.rename_eq_ok` - what renaming does to a decoded class
* `renameClass_changes_details_only` - what renaming does to the bytes of a class
-/

namespace ClassNaming

variable {α β : Type}

/-! ### Exchanging one member of a list -/

/-- A list keeps what its count and members allow if the exchanged member does. -/
theorem Counted.modify {Small : α → Prop} {values : List α} {i : Nat} {f : α → α}
    (fits : Counted Small values)
    (keeps : ∀ value, values[i]? = some value → Small value → Small (f value)) :
    Counted Small (values.modify i f) := by
  obtain ⟨short, small⟩ := fits
  refine ⟨by rwa [List.length_modify], fun value inside => ?_⟩
  obtain ⟨k, bound, rfl⟩ := List.mem_iff_getElem.mp inside
  rw [List.length_modify] at bound
  rw [List.getElem_modify]
  split
  case isTrue here =>
    exact keeps _ (here ▸ List.getElem?_eq_getElem bound) (small _ (List.getElem_mem bound))
  case isFalse => exact small _ (List.getElem_mem bound)

/-- Bytes keep their length if those of the exchanged member do. -/
theorem length_flatMap_modify (write : α → List β) (f : α → α) (values : List α) (i : Nat)
    (same : ∀ value, values[i]? = some value → (write (f value)).length = (write value).length) :
    ((values.modify i f).flatMap write).length = (values.flatMap write).length := by
  induction values generalizing i with
  | nil => rw [List.modify_nil]
  | cons value rest ih =>
    cases i with
    | zero =>
      rw [List.modify_zero_cons, List.flatMap_cons, List.flatMap_cons, List.length_append,
        List.length_append, same value rfl]
    | succ i =>
      rw [List.modify_succ_cons, List.flatMap_cons, List.flatMap_cons, List.length_append,
        List.length_append, ih i same]

/-- A list is as long as before if the item that changed is. -/
theorem length_writeCounted_modify (write : α → List UInt8) (f : α → α) (values : List α) (i : Nat)
    (same : ∀ value, values[i]? = some value → (write (f value)).length = (write value).length) :
    (writeCounted write (values.modify i f)).length = (writeCounted write values).length := by
  rw [writeCounted, writeCounted, List.length_modify, List.length_append, List.length_append,
    length_flatMap_modify write f values i same]

/-- A search finds the same member if the exchanged one looks alike. -/
theorem findIdx?_modify {p q : α → Bool} {f : α → α} (looksAlike : ∀ value, q (f value) = q value)
    (values : List α) (i : Nat) (same : ∀ value ∈ values, q value = p value) :
    (values.modify i f).findIdx? q = values.findIdx? p := by
  induction values generalizing i with
  | nil => rw [List.modify_nil]; rfl
  | cons value rest ih =>
    have here := same value List.mem_cons_self
    have behind := fun j => ih j fun other inside => same other (List.mem_cons_of_mem _ inside)
    cases i with
    | zero =>
      have whole := behind rest.length
      rw [List.modify_eq_self (Nat.le_refl _)] at whole
      rw [List.modify_zero_cons, List.findIdx?_cons, List.findIdx?_cons, looksAlike, here, whole]
    | succ i =>
      rw [List.modify_succ_cons, List.findIdx?_cons, List.findIdx?_cons, here, behind i]

/-! ### The texts of values -/

namespace ConstantPool

variable {pool pool' : ConstantPool}

/-- A value with a text is the index of a text constant. -/
theorem valueText?_eq_some_iff {value : ElementValue} {text : String} :
    pool.valueText? value = some text ↔
      ∃ index, value = .const ElementValue.stringTag index ∧ pool.text index = .ok text := by
  unfold valueText?
  constructor
  · intro found
    split at found
    · cases found
    case h_2 index known =>
      split at found
      case h_1 read =>
        obtain rfl := Option.some.inj found
        refine ⟨index, ?_, read⟩
        unfold ElementValue.stringIndex? at known
        split at known
        case h_1 tag _ =>
          split at known
          case isTrue same => rw [same, Option.some.inj known]
          case isFalse => cases known
        case h_2 => cases known
      case h_2 => cases found
  · rintro ⟨index, rfl, read⟩
    simp [ElementValue.stringIndex?, read]

/-- A text that a pool holds is held by all pools that have grown from it. -/
theorem GrownFrom.valueText? (grown : pool'.GrownFrom pool) {value : ElementValue} {text : String}
    (found : pool.valueText? value = some text) : pool'.valueText? value = some text := by
  obtain ⟨index, rfl, read⟩ := valueText?_eq_some_iff.mp found
  exact valueText?_eq_some_iff.mpr ⟨index, rfl, grown.text read⟩

/-- The texts of values, in order. -/
theorem valueTextsFrom?_eq_some {done : List String} {values : List ElementValue}
    {texts : List String} (found : pool.valueTextsFrom? done values = some texts) :
    ∃ new, texts = done.reverse ++ new ∧
      List.Forall₂ (fun value text => pool.valueText? value = some text) values new := by
  induction values generalizing done with
  | nil =>
    rw [valueTextsFrom?] at found
    exact ⟨[], by simpa using (Option.some.inj found).symm, .nil⟩
  | cons value rest ih =>
    rw [valueTextsFrom?] at found
    split at found
    case h_1 text read =>
      obtain ⟨new, rfl, all⟩ := ih found
      exact ⟨text :: new, by simp, .cons read all⟩
    case h_2 => cases found

/-! ### Exchanging indices -/

/-- Values of which those with a changed text point to the new text, and all others stay as they
are.  The pairs are the old and the new texts. -/
inductive Retargeted (pool : ConstantPool) :
    List ElementValue → List (String × String) → List ElementValue → Prop
  | nil : Retargeted pool [] [] []
  | keep {value : ElementValue} {text : String} {values values' : List ElementValue}
      {texts : List (String × String)} :
      Retargeted pool values texts values' →
        Retargeted pool (value :: values) ((text, text) :: texts) (value :: values')
  | move {value : ElementValue} {old new : String} {index : UInt16}
      {values values' : List ElementValue} {texts : List (String × String)} :
      old ≠ new → pool.text index = .ok new → Retargeted pool values texts values' →
        Retargeted pool (value :: values) ((old, new) :: texts)
          (.const ElementValue.stringTag index :: values')

/-- **What exchanging the indices does**: the pool grows by texts, stays small and filled, and leads
from the new indices to the new texts. -/
theorem retargeted_of_retarget {done values values' : List ElementValue}
    {texts : List (String × String)} (bound : pool.slots.size ≤ maxSlots)
    (size : texts.length = values.length)
    (moved : pool.retarget done values texts = .ok (values', pool')) :
    pool'.GrownFrom pool ∧ pool'.slots.size ≤ maxSlots ∧ (pool.IsFilled → pool'.IsFilled) ∧
      ∃ new, values' = done.reverse ++ new ∧ Retargeted pool' values texts new := by
  induction values generalizing pool done texts with
  | nil =>
    obtain rfl := List.length_eq_zero_iff.mp size
    obtain ⟨rfl, rfl⟩ : done.reverse ++ [] = values' ∧ pool = pool' := by
      simpa [retarget] using moved
    exact ⟨.refl pool, bound, id, [], rfl, .nil⟩
  | cons value rest ih =>
    obtain ⟨⟨old, new⟩, texts, rfl⟩ := List.exists_cons_of_length_eq_add_one size
    replace size : texts.length = rest.length := Nat.succ.inj size
    rw [retarget] at moved
    split at moved
    case isTrue same =>
      subst same
      obtain ⟨grown, bound', filled, more, rfl, retargeted⟩ := ih bound size moved
      exact ⟨grown, bound', filled, value :: more, by simp, .keep retargeted⟩
    case isFalse changed =>
      split at moved
      · cases moved
      case h_2 index between interning =>
        have interned := interned_of_intern bound interning
        obtain ⟨grown, bound', filled, more, rfl, retargeted⟩ := ih interned.bound size moved
        refine ⟨grown.trans interned.grown, bound', filled ∘ interned.filled,
          .const ElementValue.stringTag index :: more, by simp, ?_⟩
        exact .move changed (grown.text interned.text) retargeted

/-- How the values of one pool answer to those of another: each holds a text, which is renamed, and
stays the same value if renaming leaves the text alone. -/
structure Answers (rename : String → Option String) (pool pool' : ConstantPool)
    (values values' : List ElementValue) : Prop where
  length_eq : values'.length = values.length
  answer : ∀ (k : Nat) (value : ElementValue), values[k]? = some value → ∃ text new value',
    pool.valueText? value = some text ∧ rename text = some new ∧ values'[k]? = some value' ∧
      pool'.valueText? value' = some new ∧ (new = text → value' = value)

/-- **Values that were retargeted answer the old ones**: each has the new text of the old one. -/
theorem Retargeted.answers {rename : String → Option String} (grown : pool'.GrownFrom pool)
    {values values' : List ElementValue} {texts new : List String}
    (read : List.Forall₂ (fun value text => pool.valueText? value = some text) values texts)
    (renames : List.Forall₂ (fun text renamed => rename text = some renamed) texts new)
    (retargeted : Retargeted pool' values (texts.zip new) values') :
    Answers rename pool pool' values values' := by
  induction read generalizing values' new with
  | nil =>
    cases renames
    cases retargeted
    exact ⟨rfl, fun k value impossible => by simp at impossible⟩
  | @cons value text values texts first _ ih =>
    obtain ⟨renamed, new, renames_first, renames_rest, rfl⟩ := List.forall₂_cons_left_iff.mp renames
    rw [List.zip_cons_cons] at retargeted
    cases retargeted with
    | keep rest =>
      obtain ⟨size, answer⟩ := ih renames_rest rest
      refine ⟨by simp [size], fun k other there => ?_⟩
      cases k with
      | zero =>
        obtain rfl : value = other := by simpa using there
        exact ⟨text, text, value, first, renames_first, rfl, grown.valueText? first, fun _ => rfl⟩
      | succ k => exact answer k other (by simpa using there)
    | @move _ _ _ index _ values' _ changed leads rest =>
      obtain ⟨size, answer⟩ := ih renames_rest rest
      refine ⟨by simp [size], fun k other there => ?_⟩
      cases k with
      | zero =>
        obtain rfl : value = other := by simpa using there
        refine ⟨text, renamed, _, first, renames_first, rfl, ?_, fun same => ?_⟩
        · exact valueText?_eq_some_iff.mpr ⟨index, rfl, leads⟩
        · exact absurd same.symm changed
      | succ k => exact answer k other (by simpa using there)

/-- Values that all hold a text take three bytes each. -/
theorem length_write_texts {values : List ElementValue}
    (texts : ∀ value ∈ values, ∃ text, pool.valueText? value = some text) :
    (writeCounted ElementValue.write values).length = 2 + 3 * values.length := by
  have each : (values.flatMap ElementValue.write).length = 3 * values.length := by
    induction values with
    | nil => rfl
    | cons value rest ih =>
      obtain ⟨text, read⟩ := texts value List.mem_cons_self
      obtain ⟨index, rfl, -⟩ := valueText?_eq_some_iff.mp read
      have more := ih fun other inside => texts other (List.mem_cons_of_mem _ inside)
      rw [List.flatMap_cons, List.length_append, more, List.length_cons]
      simp only [ElementValue.write, writeU16, List.length_cons, List.length_nil]
      omega
  rw [writeCounted, List.length_append, each]
  rfl

section Answers

variable {rename : String → Option String} {values values' : List ElementValue}
  (answers : Answers rename pool pool' values values')
include answers

/-- What the answering values hold are texts on both sides. -/
theorem Answers.texts : (∀ value ∈ values, ∃ text, pool.valueText? value = some text) ∧
    ∀ value' ∈ values', ∃ text, pool'.valueText? value' = some text := by
  constructor
  · intro value inside
    obtain ⟨k, there⟩ := List.mem_iff_getElem?.mp inside
    obtain ⟨text, _, _, read, -⟩ := answers.answer k value there
    exact ⟨text, read⟩
  · intro value' inside
    obtain ⟨k, bound, rfl⟩ := List.mem_iff_getElem.mp inside
    rw [answers.length_eq] at bound
    obtain ⟨text, new, value', -, -, there, read, -⟩ :=
      answers.answer k values[k] (List.getElem?_eq_getElem bound)
    obtain ⟨_, rfl⟩ := List.getElem?_eq_some_iff.mp there
    exact ⟨_, read⟩

/-- They take as many bytes. -/
theorem Answers.length_write : (writeCounted ElementValue.write values').length =
    (writeCounted ElementValue.write values).length := by
  obtain ⟨texts, texts'⟩ := answers.texts
  rw [length_write_texts texts, length_write_texts texts', answers.length_eq]

/-- They fit where the old ones did. -/
theorem Answers.fits {depth : Nat} (fits : Counted (ElementValue.Fits depth) values) :
    Counted (ElementValue.Fits depth) values' := by
  obtain ⟨short, small⟩ := fits
  refine ⟨answers.length_eq ▸ short, fun value' inside => ?_⟩
  obtain ⟨text, read⟩ := answers.texts.2 value' inside
  obtain ⟨index, rfl, -⟩ := valueText?_eq_some_iff.mp read
  -- There is an old value, so the depth is not zero.
  have filled : values ≠ [] := by
    rintro rfl
    obtain rfl := List.length_eq_zero_iff.mp answers.length_eq
    cases inside
  obtain ⟨value, rest, rfl⟩ := List.exists_cons_of_ne_nil filled
  cases depth with
  | zero => exact (small value List.mem_cons_self).elim
  | succ depth =>
    have known : ElementValue.stringTag ∈ ElementValue.constTags := by decide
    exact known

end Answers

end ConstantPool

/-! ### The details of a class -/

namespace ClassFile

variable {renamer : Renamer} {c c' : ClassFile}

/-- Where the details of a class stand: the first annotation attribute, the first metadata
annotation in it, and the first array of details in that; and the values of the array. -/
structure DetailsAt (c : ClassFile) (position : Nat) (annotations : List AnnotationInfo) (i j : Nat)
    (values : List ElementValue) : Prop where
  firstAttribute : c.attributePosition? annotationsAttribute = some position
  payload : ∃ a, c.attributes[position]? = some a ∧
    AnnotationInfo.parseAll a.info = .ok annotations
  firstMetadata :
    annotations.findIdx? (fun a => c.pool.hasText a.typeIndex metadataDescriptor) = some i
  firstElement : ∃ a, annotations[i]? = some a ∧
    a.elements.findIdx? (fun e => c.pool.hasText e.1 detailsKey) = some j ∧
      ∃ name, a.elements[j]? = some (name, .array values)

/-- The names of the attributes, annotations and elements refer to constants that exist. -/
structure NamesInside (c : ClassFile) (annotations : List AnnotationInfo) : Prop where
  attributeNames : ∀ a ∈ c.attributes, a.name.toNat ≤ c.pool.slots.size
  annotationTypes : ∀ a ∈ annotations, a.typeIndex.toNat ≤ c.pool.slots.size
  elementNames : ∀ a ∈ annotations, ∀ e ∈ a.elements, e.1.toNat ≤ c.pool.slots.size

/-- What the search finds are the details. -/
theorem findDetails_eq_ok {pool : ConstantPool} {annotations : List AnnotationInfo} {i j : Nat}
    {values : List ElementValue} (found : findDetails pool annotations = .ok (i, j, values)) :
    annotations.findIdx? (fun a => pool.hasText a.typeIndex metadataDescriptor) = some i ∧
      ∃ a, annotations[i]? = some a ∧
        a.elements.findIdx? (fun e => pool.hasText e.1 detailsKey) = some j ∧
          ∃ name, a.elements[j]? = some (name, .array values) := by
  unfold findDetails at found
  split at found
  · cases found
  case h_2 i' metadata =>
    simp only at found
    split at found
    · cases found
    case h_2 j' element =>
      split at found
      case h_1 name values' there =>
        obtain ⟨rfl, rfl, rfl⟩ : i' = i ∧ j' = j ∧ values' = values := by simpa using found
        refine ⟨metadata, ?_⟩
        cases known : annotations[i']? with
        | none => simp [known] at there
        | some a =>
          rw [known, Option.map_some, Option.getD_some] at element there
          exact ⟨a, rfl, element, name, there⟩
      case h_2 => cases found

section Replaced

variable {position i j : Nat} {annotations : List AnnotationInfo}
  {values values' : List ElementValue}
  (details : c.DetailsAt position annotations i j values)
include details

/-- The payload with the new values has the length of the old one. -/
theorem DetailsAt.length_encodeAll
    (size : (writeCounted ElementValue.write values').length =
      (writeCounted ElementValue.write values).length) :
    (AnnotationInfo.encodeAll (replaceDetails i j values' annotations)).length =
      (AnnotationInfo.encodeAll annotations).length := by
  obtain ⟨a, there, -, name, array⟩ := details.firstElement
  refine length_writeCounted_modify _ _ _ _ fun a' there' => ?_
  obtain rfl : a = a' := Option.some.inj (there.symm.trans there')
  rw [AnnotationInfo.write_eq, AnnotationInfo.write_eq, List.length_append, List.length_append]
  refine congrArg _ (length_writeCounted_modify _ _ _ _ fun e array' => ?_)
  obtain rfl : (name, ElementValue.array values) = e := Option.some.inj (array.symm.trans array')
  simp only [ElementValue.writeElement, ElementValue.write_array, List.length_append,
    List.length_cons, size]

/-- The payload with the new values nests no deeper than the old one. -/
theorem DetailsAt.fits {depth : Nat} (fits : Counted (AnnotationInfo.Fits depth) annotations)
    (keeps : ∀ depth, Counted (ElementValue.Fits depth) values →
      Counted (ElementValue.Fits depth) values') :
    Counted (AnnotationInfo.Fits depth) (replaceDetails i j values' annotations) := by
  obtain ⟨a, there, -, name, array⟩ := details.firstElement
  refine fits.modify fun a' there' small => ?_
  obtain rfl : a = a' := Option.some.inj (there.symm.trans there')
  refine Counted.modify small fun e array' fitting => ?_
  obtain rfl : (name, ElementValue.array values) = e := Option.some.inj (array.symm.trans array')
  cases depth with
  | zero => exact fitting.elim
  | succ depth => exact keeps depth fitting

/-- The new payload is decoded to the annotations with the new values. -/
theorem DetailsAt.parseAll_encodeAll
    (size : (writeCounted ElementValue.write values').length =
      (writeCounted ElementValue.write values).length)
    (keeps : ∀ depth, Counted (ElementValue.Fits depth) values →
      Counted (ElementValue.Fits depth) values') :
    AnnotationInfo.parseAll (AnnotationInfo.encodeAll (replaceDetails i j values' annotations)) =
      .ok (replaceDetails i j values' annotations) := by
  obtain ⟨a, -, parsed⟩ := details.payload
  obtain ⟨fits, whole⟩ := AnnotationInfo.parseAll_eq_ok_iff.mp parsed
  refine AnnotationInfo.parseAll_eq_ok_iff.mpr ⟨?_, rfl⟩
  rw [details.length_encodeAll size, ← whole]
  exact details.fits fits keeps

end Replaced

/-- How renaming the details changes a class: the values of the details answer to the old ones, the
pool grows by texts, and nothing else changes. -/
structure RenamedFrom (renamer : Renamer) (c' c : ClassFile) (position : Nat)
    (annotations : List AnnotationInfo) (i j : Nat) (values values' : List ElementValue) :
    Prop where
  details : c.DetailsAt position annotations i j values
  frame : c' = { c with
    pool := c'.pool
    attributes := c.attributes.modify position fun a =>
      { a with info := AnnotationInfo.encodeAll (replaceDetails i j values' annotations) } }
  grown : c'.pool.GrownFrom c.pool
  bound : c'.pool.slots.size ≤ ConstantPool.maxSlots
  filled : c.pool.IsFilled → c'.pool.IsFilled
  answers : ConstantPool.Answers renamer.rename c.pool c'.pool values values'

/-- A position that was found is one of an attribute. -/
theorem exists_of_attributePosition? {name : String} {position : Nat}
    (found : c.attributePosition? name = some position) :
    ∃ a, c.attributes[position]? = some a := by
  obtain ⟨inside, -⟩ := List.findIdx?_eq_some_iff_getElem.mp found
  exact ⟨_, List.getElem?_eq_getElem inside⟩

/-- What was found in a class that was renamed, and what was exchanged. -/
structure RenameSteps (renamer : Renamer) (c' c : ClassFile) (position : Nat)
    (annotations : List AnnotationInfo) (i j : Nat) (values values' : List ElementValue)
    (old new : List String) : Prop where
  first : c.attributePosition? annotationsAttribute = some position
  payload : ∃ a, c.attributes[position]? = some a ∧
    AnnotationInfo.parseAll a.info = .ok annotations
  found : findDetails c.pool annotations = .ok (i, j, values)
  texts : c.pool.valueTextsFrom? [] values = some old
  renames : old.mapM renamer.rename = some new
  differs : new ≠ old
  moved : c.pool.retarget [] values (old.zip new) = .ok (values', c'.pool)
  frame : c' = { c with
    pool := c'.pool
    attributes := c.attributes.modify position fun a =>
      { a with info := AnnotationInfo.encodeAll (replaceDetails i j values' annotations) } }

/-! ### The steps of renaming -/

section Steps

variable {position i j : Nat} {annotations : List AnnotationInfo} {values : List ElementValue}
  {old : List String} {a : Attribute}

/-- A class whose annotations can be decoded is renamed there. -/
theorem run_rename (first : c.attributePosition? annotationsAttribute = some position)
    (there : c.attributes[position]? = some a)
    (parsed : AnnotationInfo.parseAll a.info = .ok annotations) :
    (c.rename renamer).run = (c.renameIn renamer position annotations).run := by
  unfold rename
  simp only [first, there, Option.map_some, Option.getD_some, parsed]
  rfl

/-- If the first annotations cannot be decoded, neither can the class be renamed. -/
theorem run_rename_of_undecoded {e : ClassFileError}
    (first : c.attributePosition? annotationsAttribute = some position)
    (there : c.attributes[position]? = some a)
    (undecoded : AnnotationInfo.parseAll a.info = .error e) :
    (c.rename renamer).run = some (.error e) := by
  unfold rename
  simp only [first, there, Option.map_some, Option.getD_some, undecoded]
  rfl

/-- Details that were found are all renamed, and then exchanged if that makes a difference. -/
theorem run_renameIn (found : findDetails c.pool annotations = .ok (i, j, values))
    (texts : c.pool.valueTextsFrom? [] values = some old) :
    (c.renameIn renamer position annotations).run =
      (old.mapM renamer.rename).map fun new =>
        if new = old then .ok (.error .sameDetails)
        else (c.pool.retarget [] values (old.zip new)).map fun (values', pool) =>
          .ok { c with
            pool
            attributes := c.attributes.modify position fun a => { a with
              info := AnnotationInfo.encodeAll (replaceDetails i j values' annotations) } } := by
  unfold renameIn
  simp only [found, texts]
  cases old.mapM renamer.rename with
  | none => rfl
  | some new =>
    change (if new = old then _ else _ : ExceptT ClassFileError Option _) = _
    rw [Option.map_some]
    split
    · rfl
    · cases c.pool.retarget [] values (old.zip new) <;> rfl

end Steps

/-- A class that was renamed went through all steps. -/
theorem steps_of_rename (renamed : (c.rename renamer).run = some (.ok (.ok c'))) :
    ∃ position annotations i j values values' old new,
      RenameSteps renamer c' c position annotations i j values values' old new := by
  cases first : c.attributePosition? annotationsAttribute with
  | none =>
    unfold rename at renamed
    rw [first] at renamed
    cases renamed
  | some position =>
    obtain ⟨a, there⟩ := exists_of_attributePosition? first
    cases parsed : AnnotationInfo.parseAll a.info with
    | error e =>
      rw [run_rename_of_undecoded first there parsed] at renamed
      cases renamed
    | ok annotations =>
      rw [run_rename first there parsed] at renamed
      cases found : findDetails c.pool annotations with
      | error why =>
        unfold renameIn at renamed
        rw [found] at renamed
        cases renamed
      | ok place =>
        obtain ⟨i, j, values⟩ := place
        cases texts : c.pool.valueTextsFrom? [] values with
        | none =>
          unfold renameIn at renamed
          simp only [found, texts] at renamed
          cases renamed
        | some old =>
          rw [run_renameIn found texts] at renamed
          obtain ⟨new, renames, ends⟩ := Option.map_eq_some_iff.mp renamed
          split at ends
          · cases ends
          case isFalse differs =>
            cases moved : c.pool.retarget [] values (old.zip new) with
            | error e =>
              rw [moved] at ends
              cases ends
            | ok outcome =>
              rw [moved] at ends
              obtain rfl := Except.ok.inj (Except.ok.inj ends)
              exact ⟨position, annotations, i, j, values, outcome.1, old, new, first,
                ⟨a, there, parsed⟩, found, texts, renames, differs, moved, rfl⟩

/-- What the steps come to. -/
theorem RenameSteps.renamedFrom {position i j : Nat} {annotations : List AnnotationInfo}
    {values values' : List ElementValue} {old new : List String}
    (steps : RenameSteps renamer c' c position annotations i j values values' old new)
    (bound : c.pool.slots.size ≤ ConstantPool.maxSlots) :
    RenamedFrom renamer c' c position annotations i j values values' := by
  obtain ⟨firstMetadata, firstElement⟩ := findDetails_eq_ok steps.found
  obtain ⟨_, rfl, read⟩ := ConstantPool.valueTextsFrom?_eq_some steps.texts
  have renames := Renamer.mapM_rename_eq_some_iff.mp steps.renames
  have size : (old.zip new).length = values.length := by
    rw [List.length_zip, ← renames.length_eq, Nat.min_self, read.length_eq]
  obtain ⟨grown, bound', filled, _, rfl, retargeted⟩ :=
    ConstantPool.retargeted_of_retarget bound size steps.moved
  exact {
    details := ⟨steps.first, steps.payload, firstMetadata, firstElement⟩
    frame := steps.frame
    grown, filled
    bound := bound'
    answers := retargeted.answers grown read renames }

/-- **What renaming does to a decoded class.** -/
theorem rename_eq_ok (bound : c.pool.slots.size ≤ ConstantPool.maxSlots)
    (renamed : (c.rename renamer).run = some (.ok (.ok c'))) :
    ∃ position annotations i j values values',
      RenamedFrom renamer c' c position annotations i j values values' := by
  obtain ⟨position, annotations, i, j, values, values', old, _, steps⟩ := steps_of_rename renamed
  exact ⟨position, annotations, i, j, values, values', steps.renamedFrom bound⟩

namespace RenamedFrom

variable {position i j : Nat} {annotations : List AnnotationInfo}
  {values values' : List ElementValue}
  (renamed : RenamedFrom renamer c' c position annotations i j values values')
include renamed

/-- Only the annotations at one place have changed. -/
theorem attributes_eq : c'.attributes = c.attributes.modify position fun a =>
    { a with info := AnnotationInfo.encodeAll (replaceDetails i j values' annotations) } := by
  rw [renamed.frame]

/-- The renamed class can be written, since its new payload has the length of the old one. -/
theorem writable (old : c.Writable) : c'.Writable := by
  have attributes : Counted Attribute.Small c'.attributes := by
    rw [renamed.attributes_eq]
    obtain ⟨a, there, parsed⟩ := renamed.details.payload
    obtain ⟨-, whole⟩ := AnnotationInfo.parseAll_eq_ok_iff.mp parsed
    refine old.attributes.modify fun a' there' small => ?_
    obtain rfl : a = a' := Option.some.inj (there.symm.trans there')
    rw [Attribute.Small, renamed.details.length_encodeAll renamed.answers.length_write, ← whole]
    exact small
  have pool := renamed.filled old.pool
  rw [renamed.frame] at attributes pool ⊢
  exact ⟨pool, old.interfaces, old.fields, old.methods, attributes⟩

/-- The new payload is decoded to the annotations with the new values. -/
theorem parseAll : AnnotationInfo.parseAll
    (AnnotationInfo.encodeAll (replaceDetails i j values' annotations)) =
      .ok (replaceDetails i j values' annotations) :=
  renamed.details.parseAll_encodeAll renamed.answers.length_write fun _ => renamed.answers.fits

/-- The details of the renamed class stand where those of the old one did, if no name refers to a
constant that did not exist. -/
theorem detailsAt (inside : c.NamesInside annotations) :
    c'.DetailsAt position (replaceDetails i j values' annotations) i j values' where
  firstAttribute := by
    rw [← renamed.details.firstAttribute, attributePosition?, attributePosition?,
      renamed.attributes_eq]
    refine findIdx?_modify ?_ _ _ ?_
    · exact fun a => rfl
    · exact fun a member => renamed.grown.hasText_eq (inside.attributeNames a member) _
  payload := by
    obtain ⟨a, there, -⟩ := renamed.details.payload
    refine ⟨{ a with info := AnnotationInfo.encodeAll (replaceDetails i j values' annotations) },
      ?_, renamed.parseAll⟩
    rw [renamed.attributes_eq, List.getElem?_modify_eq, there]
    rfl
  firstMetadata := by
    rw [← renamed.details.firstMetadata, replaceDetails]
    refine findIdx?_modify ?_ _ _ ?_
    · exact fun a => rfl
    · exact fun a member => renamed.grown.hasText_eq (inside.annotationTypes a member) _
  firstElement := by
    obtain ⟨a, there, first, name, array⟩ := renamed.details.firstElement
    refine ⟨{ a with elements := a.elements.modify j fun e => (e.1, .array values') },
      ?_, ?_, name, ?_⟩
    · rw [replaceDetails, List.getElem?_modify_eq, there]
      rfl
    · rw [← first]
      have member := List.mem_of_getElem? there
      refine findIdx?_modify ?_ _ _ ?_
      · exact fun e => rfl
      · exact fun e named => renamed.grown.hasText_eq (inside.elementNames a member e named) _
    · rw [List.getElem?_modify_eq, array]
      rfl

end RenamedFrom

end ClassFile

/-- The verdict on bytes is that on the class that they decode to. -/
theorem renameClass_of_parsed {renamer : Renamer} {bytes : List UInt8} {c : ClassFile}
    (parsed : ClassFile.parse bytes = .ok c) :
    renameClass renamer bytes = (c.rename renamer).run.map (·.map fun
      | .error why => .kept why
      | .ok renamed => .renamed renamed.toBytes) := by
  unfold renameClass
  simp only [parsed]
  change ((c.rename renamer) >>= _).run = _
  rw [ExceptT.run_bind]
  rcases (c.rename renamer).run with _ | e | why | renamed <;> rfl

/-- Bytes that are not a class are refused with the error of the parser. -/
theorem renameClass_of_unparsed {renamer : Renamer} {bytes : List UInt8} {e : ClassFileError}
    (unparsed : ClassFile.parse bytes = .error e) :
    renameClass renamer bytes = some (.error e) := by
  unfold renameClass
  simp only [unparsed]
  rfl

/-- A class that was renamed was parsed, renamed and written. -/
theorem exists_of_renameClass_renamed {renamer : Renamer} {bytes out : List UInt8} {c : ClassFile}
    (parsed : ClassFile.parse bytes = .ok c)
    (renamed : renameClass renamer bytes = some (.ok (.renamed out))) :
    ∃ c', (c.rename renamer).run = some (.ok (.ok c')) ∧ c'.toBytes = out := by
  rw [renameClass_of_parsed parsed] at renamed
  obtain ⟨outcome, verdict, ends⟩ := Option.map_eq_some_iff.mp renamed
  rcases outcome with e | why | c'
  · cases ends
  · cases ends
  · exact ⟨c', verdict, ClassVerdict.renamed.inj (Except.ok.inj ends)⟩

/-- What changes in a class whose details are renamed. -/
structure DetailChange (renamer : Renamer) (c c' : ClassFile) where
  position : Nat
  annotations : List AnnotationInfo
  i : Nat
  j : Nat
  values : List ElementValue
  values' : List ElementValue
  info : List UInt8
  /-- Where the details stood, and what they pointed to. -/
  details : c.DetailsAt position annotations i j values
  /-- Nothing changes but the pool and the payload at that position. -/
  frame : c' = { c with
    pool := c'.pool
    attributes := c.attributes.modify position fun a => { a with info } }
  /-- The pool is the old one, followed by text constants. -/
  grown : ∃ texts : List (List UInt8),
    c'.pool.slots.toList = c.pool.slots.toList ++ texts.map Constant.utf8
  /-- The payload is that of the old annotations with other values in the array of details. -/
  payload : AnnotationInfo.parseAll info = .ok (replaceDetails i j values' annotations)
  /-- The text of each value was renamed.  The value holds its new text, and stays as it is if that
  is the old one. -/
  answers : ConstantPool.Answers renamer.rename c.pool c'.pool values values'
  /-- The details are found in the same place again, if no name of the old class refers to a
  constant that does not exist. -/
  place : c.NamesInside annotations →
    c'.DetailsAt position (replaceDetails i j values' annotations) i j values'

/-- **Renaming a class changes its details and nothing else.**  The renamed bytes are those of a
class, and `DetailChange` says how it differs from the old one. -/
theorem renameClass_changes_details_only {renamer : Renamer} {bytes out : List UInt8}
    {c : ClassFile} (parsed : ClassFile.parse bytes = .ok c)
    (bound : c.pool.slots.size ≤ ConstantPool.maxSlots)
    (renamed : renameClass renamer bytes = some (.ok (.renamed out))) :
    ∃ c', ClassFile.parse out = .ok c' ∧ Nonempty (DetailChange renamer c c') := by
  obtain ⟨c', rename, rfl⟩ := exists_of_renameClass_renamed parsed renamed
  obtain ⟨position, annotations, i, j, values, values', change⟩ :=
    ClassFile.rename_eq_ok bound rename
  have writable := change.writable (ClassFile.bytes_of_parse parsed).1
  refine ⟨c', ClassFile.parse_toBytes_eq writable change.bound, ⟨{
    position, annotations, i, j, values, values'
    info := AnnotationInfo.encodeAll (replaceDetails i j values' annotations)
    details := change.details
    frame := change.frame
    grown := change.grown
    payload := change.parseAll
    answers := change.answers
    place := change.detailsAt }⟩⟩

namespace OneDetail

/-- A class with one detail, which points to the text constant at `index`. -/
def sample (texts : List String) (index : UInt16) : ClassFile :=
  { minor := 0, major := 52, access := 0x21, thisClass := 0, superClass := 0
    pool := ⟨(texts.map fun text => .utf8 (ModifiedUtf8.encode text)).toArray⟩
    interfaces := [], fields := [], methods := []
    attributes :=
      [⟨1, AnnotationInfo.encodeAll [⟨2, [(3, .array [.const ElementValue.stringTag index])]⟩]⟩] }

/-- A class that mentions another one in its detail. -/
def before : ClassFile :=
  sample [annotationsAttribute, metadataDescriptor, detailsKey, "net/minecraft/class_1"] 4

/-- The same class with the new name of the other one. -/
def after : ClassFile :=
  sample [annotationsAttribute, metadataDescriptor, detailsKey, "net/minecraft/class_1", "a/One"] 5

/-- A renamer that knows the other class. -/
def renamer : Renamer :=
  { resolver :=
      { table := .ofRows ["intermediary", "named"] [["net/minecraft/class_1", "a/One"]]
        space := "intermediary", source := 0, target := 1 }
    mode := .intermediary
    strategy := .spans }

theorem parse_before : ClassFile.parse before.toBytes = .ok before := by decide +kernel

/-- The detail has a new name. -/
theorem rename_detail : renamer.rename "net/minecraft/class_1" = some "a/One" := by
  have known : 0 < ["intermediary", "named"].length := by decide
  unfold Renamer.rename Renamer.renameSpans Renamer.renameFragment Renamer.lookup?
    Resolver.resolve? renamer
  simp only [MappingTable.lookup?_ofRows known]
  decide +kernel

/-- So the class is renamed. -/
theorem rename_before : (before.rename renamer).run = some (.ok (.ok after)) := by
  have first : before.attributePosition? annotationsAttribute = some 0 := by decide +kernel
  have found : findDetails before.pool [⟨2, [(3, .array [.const ElementValue.stringTag 4])]⟩] =
      .ok (0, 0, [.const ElementValue.stringTag 4]) := by rfl
  have texts : before.pool.valueTextsFrom? [] [.const ElementValue.stringTag 4] =
      some ["net/minecraft/class_1"] := by decide +kernel
  have parsed : AnnotationInfo.parseAll (AnnotationInfo.encodeAll
      [⟨2, [(3, .array [.const ElementValue.stringTag 4])]⟩]) =
        .ok [⟨2, [(3, .array [.const ElementValue.stringTag 4])]⟩] := rfl
  have renames : ["net/minecraft/class_1"].mapM renamer.rename = some ["a/One"] :=
    Renamer.mapM_rename_eq_some_iff.mpr (.cons rename_detail .nil)
  rw [ClassFile.run_rename first rfl parsed, ClassFile.run_renameIn found texts, renames,
    Option.map_some, if_neg (by decide)]
  decide +kernel

theorem renameClass_before :
    renameClass renamer before.toBytes = some (.ok (.renamed after.toBytes)) := by
  rw [renameClass_of_parsed parse_before, rename_before]
  rfl

/-- The new class differs from the old one by its detail. -/
theorem changes_detail_only : ∃ c', ClassFile.parse after.toBytes = .ok c' ∧
    Nonempty (DetailChange renamer before c') :=
  renameClass_changes_details_only parse_before (by decide) renameClass_before

end OneDetail

end ClassNaming
