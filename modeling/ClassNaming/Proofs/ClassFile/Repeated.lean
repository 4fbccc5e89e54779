import ClassNaming.Proofs.ClassFile.Kept

/-!
# Renaming a class twice

A class that was renamed is kept the next time, if renaming a detail twice is renaming it once.  The
second run reads the bytes that the first one has written and looks for the details in a pool that
has grown.  It finds them in the same place, and reads from it exactly the texts that the first run
has put there (`ClassFile.RenamedFrom.details?_eq`), so it finds them unchanged.

A name that refers to no constant of the old pool could refer to an appended text.  The details of
the renamed class could then be others than those that were renamed, so all names that the search
looks at have to refer inside the pool.

## Main Results

* `ClassFile.RenamedFrom.details?_eq` - the details of a renamed class are the renamed details
* `renameClass_renameClass` - a renamed class is kept
-/

namespace ClassNaming

namespace ConstantPool

variable {pool pool' : ConstantPool} {rename : String → Option String}
  {values values' : List ElementValue} {texts new : List String}

theorem valueTextsFrom?_of_forall₂ (done : List String)
    (read : List.Forall₂ (fun value text => pool.valueText? value = some text) values texts) :
    pool.valueTextsFrom? done values = some (done.reverse ++ texts) := by
  induction read generalizing done with
  | nil => simp [valueTextsFrom?]
  | @cons value text values texts first _ ih =>
    rw [valueTextsFrom?, first]
    simp only
    rw [ih (text :: done)]
    simp

theorem exists_texts (each : ∀ value ∈ values, ∃ text, pool.valueText? value = some text) :
    ∃ texts, List.Forall₂ (fun value text => pool.valueText? value = some text) values texts := by
  induction values with
  | nil => exact ⟨[], .nil⟩
  | cons value rest ih =>
    obtain ⟨text, first⟩ := each value List.mem_cons_self
    obtain ⟨texts, read⟩ := ih fun other mem => each other (List.mem_cons_of_mem _ mem)
    exact ⟨text :: texts, .cons first read⟩

/-- Answering values hold the renamed texts. -/
theorem Answers.texts_renamed (answers : Answers rename pool pool' values values')
    (read : List.Forall₂ (fun value text => pool.valueText? value = some text) values texts)
    (renames : List.Forall₂ (fun text renamed => rename text = some renamed) texts new) :
    List.Forall₂ (fun value text => pool'.valueText? value = some text) values' new := by
  have size := read.length_eq
  have count := renames.length_eq
  refine List.forall₂_iff_get.mpr ⟨by rw [answers.length_eq, size, count], ?_⟩
  intro k here there
  rw [answers.length_eq] at here
  obtain ⟨text, renamed, value', old, renames_text, found, now, -⟩ :=
    answers.answer k values[k] (List.getElem?_eq_getElem here)
  obtain ⟨_, rfl⟩ := List.getElem?_eq_some_iff.mp found
  obtain rfl : text = texts[k] := Option.some.inj (old.symm.trans (read.get here (size ▸ here)))
  have same := Option.some.inj ((renames.get (size ▸ here) there).symm.trans renames_text)
  exact same ▸ now

/-- The texts of answering values can all be renamed. -/
theorem Answers.exists_new (answers : Answers rename pool pool' values values')
    (read : List.Forall₂ (fun value text => pool.valueText? value = some text) values texts) :
    ∃ new, List.Forall₂ (fun text renamed => rename text = some renamed) texts new := by
  suffices each : ∀ text ∈ texts, ∃ renamed, rename text = some renamed by
    clear read answers
    induction texts with
    | nil => exact ⟨[], .nil⟩
    | cons text texts ih =>
      obtain ⟨renamed, first⟩ := each text List.mem_cons_self
      obtain ⟨new, rest⟩ := ih fun other mem => each other (List.mem_cons_of_mem _ mem)
      exact ⟨renamed :: new, .cons first rest⟩
  intro text mem
  obtain ⟨k, bound, rfl⟩ := List.mem_iff_getElem.mp mem
  have here : k < values.length := read.length_eq ▸ bound
  obtain ⟨text, renamed, _, old, renames, -⟩ :=
    answers.answer k values[k] (List.getElem?_eq_getElem here)
  obtain rfl : text = texts[k] := Option.some.inj (old.symm.trans (read.get here bound))
  exact ⟨renamed, renames⟩

end ConstantPool

namespace ClassFile

variable {renamer : Renamer} {c c' : ClassFile} {position i j : Nat}
  {annotations : List AnnotationInfo} {values values' : List ElementValue}

/-- The details are what the search finds. -/
theorem DetailsAt.findDetails_eq (details : c.DetailsAt position annotations i j values) :
    findDetails c.pool annotations = .ok (i, j, values) := by
  obtain ⟨a, there, element, name, array⟩ := details.firstElement
  rw [findDetails, details.firstMetadata]
  simp only [there, Option.map_some, Option.getD_some, element, array]

theorem DetailsAt.details?_eq (details : c.DetailsAt position annotations i j values) :
    c.details? = c.pool.valueTextsFrom? [] values := by
  obtain ⟨a, there, parsed⟩ := details.payload
  rw [ClassFile.details?_eq details.firstAttribute there parsed, details.findDetails_eq]
  rfl

theorem DetailsAt.decodable (details : c.DetailsAt position annotations i j values) :
    c.Decodable := by
  intro position' a' first there'
  obtain ⟨a, there, parsed⟩ := details.payload
  obtain rfl := Option.some.inj (details.firstAttribute.symm.trans first)
  obtain rfl := Option.some.inj (there.symm.trans there')
  exact ⟨annotations, parsed⟩

/-- **The details of a renamed class** are the renamed details of the old one. -/
theorem RenamedFrom.details?_eq
    (renamed : RenamedFrom renamer c' c position annotations i j values values')
    (inside : c.NamesInside annotations) :
    ∃ old new, c.details? = some old ∧ old.mapM renamer.rename = some new ∧
      c'.details? = some new := by
  obtain ⟨old, read⟩ := ConstantPool.exists_texts renamed.answers.texts.1
  obtain ⟨new, renames⟩ := renamed.answers.exists_new read
  refine ⟨old, new, ?_, Renamer.mapM_rename_eq_some_iff.mpr renames, ?_⟩
  · rw [renamed.details.details?_eq, ConstantPool.valueTextsFrom?_of_forall₂ [] read]
    rfl
  · rw [(renamed.detailsAt inside).details?_eq,
      ConstantPool.valueTextsFrom?_of_forall₂ [] (renamed.answers.texts_renamed read renames)]
    rfl

end ClassFile

/-- **A renamed class is kept** the next time, if renaming each of its details twice is renaming it
once. -/
theorem renameClass_renameClass {renamer : Renamer} {bytes out : List UInt8} {c : ClassFile}
    (parsed : ClassFile.parse bytes = .ok c)
    (bound : c.pool.slots.size ≤ ConstantPool.maxSlots)
    (inside : ∀ position a annotations,
      c.attributePosition? annotationsAttribute = some position →
      c.attributes[position]? = some a → AnnotationInfo.parseAll a.info = .ok annotations →
      c.NamesInside annotations)
    (again : ∀ details, c.details? = some details → ∀ detail ∈ details, ∀ new,
      renamer.rename detail = some new → renamer.rename new = some new)
    (renamed : renameClass renamer bytes = some (.ok (.renamed out))) :
    ∃ why, renameClass renamer out = some (.ok (.kept why)) := by
  obtain ⟨c', rename, rfl⟩ := exists_of_renameClass_renamed parsed renamed
  obtain ⟨position, annotations, i, j, values, values', change⟩ :=
    ClassFile.rename_eq_ok bound rename
  have writable := change.writable (ClassFile.bytes_of_parse parsed).1
  obtain ⟨a, there, decoded⟩ := change.details.payload
  have names := inside position a annotations change.details.firstAttribute there decoded
  obtain ⟨old, new, details, renames, details'⟩ := change.details?_eq names
  have parsed' := ClassFile.parse_toBytes_eq writable change.bound
  refine (renameClass_kept_iff_same parsed' (change.detailsAt names).decodable).mpr ?_
  intro found there
  obtain rfl := Option.some.inj (details'.symm.trans there)
  refine Renamer.mapM_rename_eq_self_iff.mpr fun text mem => ?_
  obtain ⟨size, each⟩ := List.forall₂_iff_get.mp (Renamer.mapM_rename_eq_some_iff.mp renames)
  obtain ⟨k, bound, rfl⟩ := List.mem_iff_getElem.mp mem
  exact again old details _ (List.getElem_mem (size ▸ bound)) _ (each k (size ▸ bound) bound)

namespace OneDetail

theorem kept_after : ∃ why, renameClass renamer after.toBytes = some (.ok (.kept why)) := by
  have parsed : AnnotationInfo.parseAll (AnnotationInfo.encodeAll
      [⟨2, [(3, .array [.const ElementValue.stringTag 4])]⟩]) =
        .ok [⟨2, [(3, .array [.const ElementValue.stringTag 4])]⟩] := rfl
  have details : before.details? = some ["net/minecraft/class_1"] := by decide
  refine renameClass_renameClass parse_before (by decide) ?_ ?_ renameClass_before
  · intro position a annotations first there decoded
    have only : before.attributes = [⟨1, AnnotationInfo.encodeAll
        [⟨2, [(3, .array [.const ElementValue.stringTag 4])]⟩]⟩] := rfl
    obtain rfl := List.mem_singleton.mp (only ▸ List.mem_of_getElem? there)
    obtain rfl := Except.ok.inj (parsed.symm.trans decoded)
    exact ⟨by decide, by decide, by decide⟩
  · intro found there detail mem new renames
    obtain rfl := Option.some.inj (details.symm.trans there)
    obtain rfl := List.mem_singleton.mp mem
    obtain rfl := Option.some.inj (rename_detail.symm.trans renames)
    decide

end OneDetail

end ClassNaming
