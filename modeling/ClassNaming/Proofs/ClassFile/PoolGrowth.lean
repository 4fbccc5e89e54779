import Mathlib.Data.Finset.Card
import Mathlib.Data.Finset.Dedup
import Mathlib.Data.Finset.Filter
import ClassNaming.Proofs.ClassFile.Interning
import ClassNaming.Proofs.ClassFile.Repeated

/-!
# How far the pool of a renamed class grows

Each changed detail is interned: its new text is found in the pool, or appended.  What is appended
for one detail is found for the next, so a new text takes a slot if the old pool lacks it, and takes
only one.  The number of slots that are needed in the end is therefore known from the start, and
interning a text leaves it as it is (`ConstantPool.demand_append`).  That is the invariant of the
loop over the details.

It follows when a class cannot be renamed: a new text is too long for a constant, or the slots that
are needed are more than a pool may have.

## Main Definitions

* `ConstantPool.missing` - the texts that a pool lacks, each of them once
* `ConstantPool.demand` - how many slots a pool needs to hold certain texts, too
* `Renamer.newTexts` - the new texts of the details that change

## Main Results

* `ConstantPool.retarget_ends` - when all details find their new texts, and what the pool grows to
* `renameClass_fails_iff` - when a class cannot be renamed
-/

namespace ClassNaming

namespace ConstantPool

variable {pool pool' : ConstantPool} {text : String} {texts : List String}

/-! ### The slots that are needed -/

/-- The texts that the pool lacks, each of them once. -/
def missing (pool : ConstantPool) (texts : List String) : Finset String :=
  texts.toFinset.filter fun text => ¬ pool.Holds text

/-- How many slots the pool needs to hold the texts, too. -/
def demand (pool : ConstantPool) (texts : List String) : Nat :=
  pool.slots.size + (pool.missing texts).card

/-- A text is missing if it is asked for and the pool does not hold it. -/
theorem mem_missing {other : String} :
    other ∈ pool.missing texts ↔ other ∈ texts ∧ ¬ pool.Holds other := by
  simp [missing]

/-- Without texts a pool needs the slots that it has. -/
theorem demand_nil (pool : ConstantPool) : pool.demand [] = pool.slots.size := by
  simp [demand, missing]

/-- A text that the pool holds needs no slot. -/
theorem demand_cons_of_holds (held : pool.Holds text) :
    pool.demand (text :: texts) = pool.demand texts := by
  have same : pool.missing (text :: texts) = pool.missing texts := by
    ext other
    simp only [mem_missing, List.mem_cons]
    constructor
    · rintro ⟨rfl | listed, lacks⟩
      · exact absurd held lacks
      · exact ⟨listed, lacks⟩
    · exact fun ⟨listed, lacks⟩ => ⟨.inr listed, lacks⟩
  rw [demand, demand, same]

/-- A text that is appended takes the slot that it was counted for. -/
theorem demand_append (lacks : ¬ pool.Holds text) :
    (pool.appended text).demand texts = pool.demand (text :: texts) := by
  have fresh : text ∉ (pool.appended text).missing texts := fun mem =>
    (mem_missing.mp mem).2 (holds_appended_iff.mpr (.inr rfl))
  have split : pool.missing (text :: texts) =
      insert text ((pool.appended text).missing texts) := by
    ext other
    simp only [Finset.mem_insert, mem_missing, holds_appended_iff, List.mem_cons, not_or]
    constructor
    · rintro ⟨rfl | listed, lacks'⟩
      · exact .inl rfl
      · exact (eq_or_ne other text).imp_right fun differs => ⟨listed, lacks', differs⟩
    · rintro (rfl | ⟨listed, lacks', -⟩)
      · exact ⟨.inl rfl, lacks⟩
      · exact ⟨.inr listed, lacks'⟩
  rw [demand, demand, split, Finset.card_insert_of_notMem fresh, size_appended]
  omega

/-- A text that the pool lacks is counted. -/
theorem size_lt_demand (lacks : ¬ pool.Holds text) (texts : List String) :
    pool.slots.size < pool.demand (text :: texts) := by
  have counted : text ∈ pool.missing (text :: texts) :=
    mem_missing.mpr ⟨List.mem_cons_self, lacks⟩
  have positive := Finset.card_pos.mpr ⟨text, counted⟩
  rw [demand]
  omega

/-- The pool can take up the texts: all of them are short, and there are slots for those that it
lacks. -/
def Affords (pool : ConstantPool) (texts : List String) : Prop :=
  (∀ text ∈ texts, Short text) ∧ pool.demand texts ≤ maxSlots

/-- So it can be left out of what the pool is to take up. -/
theorem affords_cons_of_holds (short : Short text) (held : pool.Holds text) :
    pool.Affords (text :: texts) ↔ pool.Affords texts := by
  rw [Affords, Affords, demand_cons_of_holds held, List.forall_mem_cons]
  exact and_congr_left fun _ => and_iff_right short

/-- A text that it lacks may be taken up before the others. -/
theorem affords_append (short : Short text) (lacks : ¬ pool.Holds text) :
    (pool.appended text).Affords texts ↔ pool.Affords (text :: texts) := by
  rw [Affords, Affords, demand_append lacks, List.forall_mem_cons]
  exact and_congr_left fun _ => (and_iff_right short).symm

/-- When the pool cannot take up the texts. -/
theorem not_affords_iff (bound : pool.slots.size ≤ maxSlots) : ¬ pool.Affords texts ↔
    (∃ text ∈ texts, 65535 < (ModifiedUtf8.encode text).length) ∨
      ((pool.missing texts).Nonempty ∧
        maxSlots < pool.slots.size + (pool.missing texts).card) := by
  have needs : maxSlots < pool.slots.size + (pool.missing texts).card →
      (pool.missing texts).Nonempty := by
    intro more
    rw [← Finset.card_pos]
    omega
  rw [and_iff_right_of_imp needs, Affords, not_and_or, demand, Nat.not_le]
  simp [Short]

/-! ### Interning all new texts -/

/-- The new texts among pairs of an old text and a new one, where the two differ. -/
def changedTexts (texts : List (String × String)) : List String :=
  (texts.filter fun text => text.1 ≠ text.2).map Prod.snd

/-- **Exchanging the indices ends well exactly if the pool can take up the new texts**, and then it
has the slots that they need. -/
theorem retarget_ends (done values : List ElementValue) (texts : List (String × String))
    (bound : pool.slots.size ≤ maxSlots) (size : texts.length = values.length) :
    (pool.Affords (changedTexts texts) ∧ ∃ values' pool',
      pool.retarget done values texts = .ok (values', pool') ∧
        pool'.slots.size = pool.demand (changedTexts texts)) ∨
    (¬ pool.Affords (changedTexts texts) ∧ ∃ e, pool.retarget done values texts = .error e) := by
  induction values generalizing pool done texts with
  | nil =>
    obtain rfl := List.length_eq_zero_iff.mp size
    refine .inl ⟨⟨by simp [changedTexts], ?_⟩, _, pool, rfl, ?_⟩
    · exact (demand_nil pool).le.trans bound
    · exact (demand_nil pool).symm
  | cons value rest ih =>
    obtain ⟨⟨old, new⟩, texts, rfl⟩ := List.exists_cons_of_length_eq_add_one size
    replace size : texts.length = rest.length := Nat.succ.inj size
    by_cases changes : old = new
    · have same : changedTexts ((old, new) :: texts) = changedTexts texts := by
        simp [changedTexts, changes]
      rw [retarget, if_pos changes, same]
      exact ih (value :: done) texts bound size
    · have first : changedTexts ((old, new) :: texts) = new :: changedTexts texts := by
        simp [changedTexts, changes]
      have ends := pool.interning_intern new
      rw [retarget, if_neg changes, first]
      generalize pool.intern new = outcome at ends ⊢
      cases ends with
      | tooLong long =>
        exact .inr ⟨fun affords => long (affords.1 new List.mem_cons_self), _, rfl⟩
      | found short held index =>
        rw [affords_cons_of_holds short held, demand_cons_of_holds held]
        exact ih _ texts bound size
      | full short lacks full =>
        have needs := size_lt_demand lacks (changedTexts texts)
        exact .inr ⟨fun affords => by have limit := affords.2; omega, _, rfl⟩
      | appends short lacks room index =>
        rw [← affords_append short lacks, ← demand_append lacks]
        exact ih _ texts (by rw [size_appended]; omega) size

end ConstantPool

/-! ### Classes -/

/-- The new texts of the details that change. -/
def Renamer.newTexts (renamer : Renamer) (details : List String) : List String :=
  details.filterMap fun detail => (renamer.rename detail).filter (· ≠ detail)

variable {renamer : Renamer} {bytes : List UInt8} {c c' : ClassFile} {details new : List String}

/-- The new texts are those that the details and their new ones differ in. -/
theorem changedTexts_zip (renames : details.mapM renamer.rename = some new) :
    ConstantPool.changedTexts (details.zip new) = renamer.newTexts details := by
  replace renames := Renamer.mapM_rename_eq_some_iff.mp renames
  induction renames with
  | nil => rfl
  | @cons detail renamed later rest first _ ih =>
    unfold ConstantPool.changedTexts Renamer.newTexts at ih ⊢
    rw [List.zip_cons_cons, List.filter_cons, List.filterMap_cons, first, Option.filter_some]
    by_cases same : renamed = detail
    · simpa [same] using ih
    · simpa [same, Ne.symm same] using ih

/-- Details that stay ask for no new text. -/
theorem newTexts_eq_nil (same : details.mapM renamer.rename = some details) :
    renamer.newTexts details = [] := by
  rw [Renamer.newTexts, List.filterMap_eq_nil_iff]
  intro detail mem
  rw [Renamer.mapM_rename_eq_self_iff.mp same detail mem]
  simp

/-- **Renaming a class ends well exactly if the pool can take up the new texts**, and then the pool
of a renamed class has the slots that they need. -/
theorem ClassFile.rename_ends (decodable : c.Decodable)
    (bound : c.pool.slots.size ≤ ConstantPool.maxSlots)
    (renames : (c.details?.getD []).mapM renamer.rename = some new) :
    (c.pool.Affords (renamer.newTexts (c.details?.getD [])) ∧
      ∃ verdict, (c.rename renamer).run = some (.ok verdict) ∧ ∀ c', verdict = .ok c' →
        c'.pool.slots.size = c.pool.demand (renamer.newTexts (c.details?.getD []))) ∨
    (¬ c.pool.Affords (renamer.newTexts (c.details?.getD [])) ∧
      ∃ e, (c.rename renamer).run = some (.error e)) := by
  have needs := ConstantPool.demand_nil c.pool
  have nothing : c.pool.Affords [] := ⟨by simp, needs.le.trans bound⟩
  cases found : c.details? with
  | none =>
    obtain ⟨why, kept⟩ := ClassFile.run_rename_of_none renamer decodable found
    exact .inl ⟨nothing, _, kept, fun c' impossible => by cases impossible⟩
  | some details =>
    rw [found, Option.getD_some] at renames
    rw [Option.getD_some]
    obtain ⟨_, _, _, values, _, size, ends⟩ :=
      ClassFile.run_rename_of_some renamer found
    rw [renames, Option.map_some] at ends
    by_cases same : new = details
    · subst same
      rw [newTexts_eq_nil renames]
      exact .inl ⟨nothing, _, by rw [ends, if_pos rfl], fun c' impossible => by cases impossible⟩
    · have count : (details.zip new).length = values.length := by
        have pairs := (Renamer.mapM_rename_eq_some_iff.mp renames).length_eq
        rw [List.length_zip, ← pairs, Nat.min_self, size]
      rw [if_neg same] at ends
      rw [← changedTexts_zip renames]
      rcases ConstantPool.retarget_ends [] values _ bound count with
        ⟨affords, values', pool', moved, grown⟩ | ⟨lacks, e, moved⟩
      · rw [moved] at ends
        refine .inl ⟨affords, _, ends, fun c' same => ?_⟩
        obtain rfl := Except.ok.inj same
        exact grown
      · rw [moved] at ends
        exact .inr ⟨lacks, e, ends⟩

/-- Decoding succeeds, so only renaming can fail. -/
theorem renameClass_fails_iff_rename (parsed : ClassFile.parse bytes = .ok c) :
    (∃ e, renameClass renamer bytes = some (.error e)) ↔
      ∃ e, (c.rename renamer).run = some (.error e) := by
  rw [renameClass_of_parsed parsed]
  rcases (c.rename renamer).run with _ | e | why | renamed <;> simp [Except.map]

/-- **A class cannot be renamed exactly if all its details can be, and a new text is too long or the
pool is too small**, and the pool of a renamed class has one slot more for each new text that it
lacked. -/
theorem renameClass_fails_iff (renamer : Renamer) (parsed : ClassFile.parse bytes = .ok c)
    (bound : c.pool.slots.size ≤ ConstantPool.maxSlots) (decodable : c.Decodable) :
    ((∃ e, renameClass renamer bytes = some (.error e)) ↔
      (∀ detail ∈ c.details?.getD [], (renamer.rename detail).isSome) ∧
      ((∃ new ∈ renamer.newTexts (c.details?.getD []),
        65535 < (ModifiedUtf8.encode new).length) ∨
      ((c.pool.missing (renamer.newTexts (c.details?.getD []))).Nonempty ∧
        ConstantPool.maxSlots < c.pool.slots.size +
          (c.pool.missing (renamer.newTexts (c.details?.getD []))).card))) ∧
    ∀ out, renameClass renamer bytes = some (.ok (.renamed out)) →
      ∃ c', ClassFile.parse out = .ok c' ∧ c'.pool.slots.size = c.pool.slots.size +
        (c.pool.missing (renamer.newTexts (c.details?.getD []))).card := by
  rw [← ConstantPool.not_affords_iff bound]
  cases renames : (c.details?.getD []).mapM renamer.rename with
  | none =>
    -- There is no verdict at all.
    obtain ⟨detail, mem, endless⟩ := Renamer.mapM_rename_eq_none_iff.mp renames
    have none : renameClass renamer bytes = none := by
      obtain ⟨details, found⟩ : ∃ details, c.details? = some details := by
        cases found : c.details? with
        | none => simp [found] at mem
        | some details => exact ⟨details, rfl⟩
      rw [found, Option.getD_some] at mem
      exact renameClass_eq_none_iff.mpr ⟨c, details, parsed, found, detail, mem, endless⟩
    rw [none]
    refine ⟨iff_of_false (by simp) fun ⟨ends, _⟩ => ?_, fun out impossible => by cases impossible⟩
    simpa [endless] using ends detail mem
  | some new =>
    have ends : ∀ detail ∈ c.details?.getD [], (renamer.rename detail).isSome := by
      intro detail mem
      rw [Option.isSome_iff_ne_none]
      intro endless
      rw [Renamer.mapM_rename_eq_none_iff.mpr ⟨detail, mem, endless⟩] at renames
      cases renames
    rw [and_iff_right ends, renameClass_fails_iff_rename parsed]
    rcases ClassFile.rename_ends decodable bound renames with
      ⟨affords, verdict, run, grown⟩ | ⟨lacks, e, fails⟩
    · refine ⟨iff_of_false ?_ (not_not.mpr affords), fun out renamed => ?_⟩
      · rintro ⟨e, fails⟩
        rw [run] at fails
        cases fails
      · obtain ⟨c', rename, rfl⟩ := exists_of_renameClass_renamed parsed renamed
        obtain ⟨_, _, _, _, _, _, change⟩ := ClassFile.rename_eq_ok bound rename
        have writable := change.writable (ClassFile.bytes_of_parse parsed).1
        refine ⟨c', ClassFile.parse_toBytes_eq writable change.bound, grown c' ?_⟩
        exact Except.ok.inj (Option.some.inj (run.symm.trans rename))
    · refine ⟨iff_of_true ⟨e, fails⟩ lacks, fun out renamed => ?_⟩
      obtain ⟨c', rename, -⟩ := exists_of_renameClass_renamed parsed renamed
      rw [fails] at rename
      cases rename

namespace RepeatedDetail

/-- The payload of a metadata annotation with four details. -/
def annotations : List AnnotationInfo :=
  [⟨2, [(3, .array ([4, 4, 5, 6].map (ElementValue.const ElementValue.stringTag)))]⟩]

/-- A class that mentions one class twice, and another one of which the pool holds the new name. -/
def sample : ClassFile :=
  { OneDetail.sample [annotationsAttribute, metadataDescriptor, detailsKey, "net/minecraft/class_1",
      "net/minecraft/class_2", "a/Two"] 4 with
    attributes := [⟨1, AnnotationInfo.encodeAll annotations⟩] }

/-- A renamer that knows both classes. -/
def knowingTwo : Renamer :=
  { resolver :=
      { table := .ofRows ["intermediary", "named"]
          [["net/minecraft/class_1", "a/One"], ["net/minecraft/class_2", "a/Two"]]
        space := "intermediary", source := 0, target := 1 }
    mode := .intermediary
    strategy := .spans }

theorem parse_sample : ClassFile.parse sample.toBytes = .ok sample := by decide

theorem details_sample : sample.details? =
    some ["net/minecraft/class_1", "net/minecraft/class_1", "net/minecraft/class_2", "a/Two"] := by
  decide

theorem decodable_sample : sample.Decodable := by
  have parsed : AnnotationInfo.parseAll (AnnotationInfo.encodeAll annotations) =
      .ok annotations := rfl
  intro position a _ there
  obtain rfl : a = ⟨1, AnnotationInfo.encodeAll annotations⟩ :=
    List.mem_singleton.mp (List.mem_of_getElem? there)
  exact ⟨_, parsed⟩

/-- Two of the details have new names, one of them twice. -/
theorem renames_sample : ["net/minecraft/class_1", "net/minecraft/class_1",
    "net/minecraft/class_2", "a/Two"].mapM knowingTwo.rename =
      some ["a/One", "a/One", "a/Two", "a/Two"] := by
  have known : 0 < ["intermediary", "named"].length := by decide
  unfold Renamer.rename Renamer.renameSpans Renamer.renameFragment Renamer.lookup?
    Resolver.resolve? knowingTwo
  simp only [MappingTable.lookup?_ofRows known]
  decide

/-- So two texts are asked for, one of them twice. -/
theorem newTexts_sample : knowingTwo.newTexts
    ["net/minecraft/class_1", "net/minecraft/class_1", "net/minecraft/class_2", "a/Two"] =
      ["a/One", "a/One", "a/Two"] := by
  rw [← changedTexts_zip renames_sample]
  decide

/-- The pool of the class grows by one slot. -/
theorem grows_by_one : ∃ out c', renameClass knowingTwo sample.toBytes =
      some (.ok (.renamed out)) ∧
    ClassFile.parse out = .ok c' ∧ c'.pool.slots.size = sample.pool.slots.size + 1 := by
  have fails := renameClass_fails_iff knowingTwo parse_sample (by decide) decodable_sample
  have one : (sample.pool.missing ["a/One", "a/One", "a/Two"]).card = 1 := by decide
  simp only [details_sample, Option.getD_some, newTexts_sample, one] at fails
  have ends : (renameClass knowingTwo sample.toBytes).isSome := by
    rw [renameClass_isSome_iff parse_sample]
    intro details found detail mem
    obtain rfl := Option.some.inj (details_sample.symm.trans found)
    rw [Option.isSome_iff_ne_none]
    intro endless
    cases renames_sample.symm.trans (Renamer.mapM_rename_eq_none_iff.mpr ⟨detail, mem, endless⟩)
  obtain ⟨outcome, verdict⟩ := Option.isSome_iff_exists.mp ends
  rcases outcome with e | why | out
  · rcases (fails.1.mp ⟨e, verdict⟩).2 with long | full
    · exact absurd long (by decide)
    · exact absurd full.2 (by decide)
  · have none := newTexts_eq_nil ((renameClass_kept_iff_same parse_sample decodable_sample).mp
      ⟨why, verdict⟩ _ details_sample)
    rw [newTexts_sample] at none
    cases none
  · obtain ⟨c', parsed, size⟩ := fails.2 out verdict
    exact ⟨out, c', verdict, parsed, size⟩

end RepeatedDetail

end ClassNaming
