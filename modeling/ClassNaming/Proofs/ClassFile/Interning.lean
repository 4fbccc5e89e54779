import ClassNaming.Proofs.ClassFile.ConstantPool

/-!
# Interning texts

A text is interned by its code: if a constant holds that code, its index is returned, and else the
code is appended.  Since different texts have different codes, an index stands for one text, and
since the code that was appended is found the next time, a text keeps its index.

A pool that was read may hold the text in another spelling, or bytes that are no text at all.  They
are not what is looked for, so they are left alone.

## Main Definitions

* `ConstantPool.Holds` - the code of a text is the content of a constant
* `ConstantPool.appended` - the pool with a text appended
* `ConstantPool.Interning` - the ways that interning a text can end

## Main Results

* `ConstantPool.interning_intern` - interning a text ends in one of these ways
* `ConstantPool.intern_is_faithful` - which index a text gets, and what becomes of the pool
-/

namespace ClassNaming

namespace ConstantPool

variable {pool pool' : ConstantPool} {text : String} {index : UInt16}

/-! ### How interning ends -/

/-- A text is the content of a constant. -/
def Holds (pool : ConstantPool) (text : String) : Prop :=
  .utf8 (ModifiedUtf8.encode text) ∈ pool.slots.toList

instance (pool : ConstantPool) (text : String) : Decidable (pool.Holds text) :=
  inferInstanceAs (Decidable (_ ∈ pool.slots.toList))

/-- A text takes no more bytes than a constant can hold. -/
def Short (text : String) : Prop := (ModifiedUtf8.encode text).length ≤ 65535

/-- The pool with a text appended. -/
def appended (pool : ConstantPool) (text : String) : ConstantPool :=
  ⟨pool.slots.push (.utf8 (ModifiedUtf8.encode text))⟩

theorem size_appended : (pool.appended text).slots.size = pool.slots.size + 1 :=
  Array.size_push _

theorem holds_appended_iff {other : String} :
    (pool.appended text).Holds other ↔ pool.Holds other ∨ other = text := by
  have codes : ModifiedUtf8.encode other = ModifiedUtf8.encode text ↔ other = text :=
    ⟨ModifiedUtf8.encode_injective, congrArg _⟩
  simp [Holds, appended, codes]

theorem findBytes?_eq_none_iff :
    pool.findBytes? (ModifiedUtf8.encode text) = none ↔ ¬ pool.Holds text := by
  rw [findBytes?, Array.findIdx?_eq_none_iff, Holds, Array.mem_toList_iff]
  constructor
  · intro misses held
    simpa using misses _ held
  · intro lacks constant there
    split
    case h_1 bytes =>
      rw [beq_eq_false_iff_ne]
      rintro rfl
      exact lacks there
    case h_2 => rfl

/-- A text that is short enough is looked for, and pushed if it is not found. -/
theorem intern_eq (short : Short text) : pool.intern text =
    match pool.findBytes? (ModifiedUtf8.encode text) with
    | some slot => .ok (UInt16.ofNat (slot + 1), pool)
    | none => pool.push (.utf8 (ModifiedUtf8.encode text)) :=
  if_neg (Nat.not_lt.mpr short)

theorem intern_of_long (long : ¬ Short text) :
    pool.intern text = .error (.textTooLong (ModifiedUtf8.encode text).length) :=
  if_pos (Nat.not_le.mp long)

theorem exists_intern_of_holds (short : Short text) (held : pool.Holds text) :
    ∃ index, pool.intern text = .ok (index, pool) := by
  cases found : pool.findBytes? (ModifiedUtf8.encode text) with
  | none => exact absurd held (findBytes?_eq_none_iff.mp found)
  | some slot =>
    rw [intern_eq short, found]
    exact ⟨_, rfl⟩

theorem intern_eq_push (short : Short text) (lacks : ¬ pool.Holds text) :
    pool.intern text = pool.push (.utf8 (ModifiedUtf8.encode text)) := by
  rw [intern_eq short, findBytes?_eq_none_iff.mpr lacks]

/-- A text that the pool lacks is appended if there is a slot left. -/
theorem intern_of_lacks (short : Short text) (lacks : ¬ pool.Holds text) : pool.intern text =
    if pool.slots.size < maxSlots then
      .ok (UInt16.ofNat (pool.slots.size + 1), pool.appended text)
    else .error .poolFull := by
  have one : slotsOf (.utf8 (ModifiedUtf8.encode text)) =
      [.utf8 (ModifiedUtf8.encode text)] := rfl
  rw [intern_eq_push short lacks]
  simp only [push_eq, one, List.length_singleton, Nat.succ_le_iff, appended,
    Array.push_eq_append]

/-- The ways that interning a text can end. -/
inductive Interning (pool : ConstantPool) (text : String) :
    Except ClassFileError (UInt16 × ConstantPool) → Prop
  | tooLong (long : ¬ Short text) :
      Interning pool text (.error (.textTooLong (ModifiedUtf8.encode text).length))
  | found (short : Short text) (held : pool.Holds text) (index : UInt16) :
      Interning pool text (.ok (index, pool))
  | full (short : Short text) (lacks : ¬ pool.Holds text) (full : maxSlots ≤ pool.slots.size) :
      Interning pool text (.error .poolFull)
  | appends (short : Short text) (lacks : ¬ pool.Holds text) (room : pool.slots.size < maxSlots)
      (index : UInt16) : Interning pool text (.ok (index, pool.appended text))

theorem interning_intern (pool : ConstantPool) (text : String) :
    pool.Interning text (pool.intern text) := by
  by_cases short : Short text
  case neg =>
    rw [intern_of_long short]
    exact .tooLong short
  by_cases held : pool.Holds text
  case pos =>
    obtain ⟨index, found⟩ := exists_intern_of_holds short held
    rw [found]
    exact .found short held index
  case neg =>
    rw [intern_of_lacks short held]
    split
    case isTrue room => exact .appends short held room _
    case isFalse full => exact .full short held (Nat.not_lt.mp full)

/-! ### Interning again -/

/-- What interning a text leaves of the pool. -/
theorem eq_of_intern (done : pool.intern text = .ok (index, pool')) :
    pool.Holds text ∧ pool' = pool ∨ ¬ pool.Holds text ∧ pool' = pool.appended text := by
  have ends := pool.interning_intern text
  rw [done] at ends
  cases ends with
  | found _ held => exact .inl ⟨held, rfl⟩
  | appends _ lacks => exact .inr ⟨lacks, rfl⟩

/-- A text that was appended is found at the end. -/
theorem findBytes?_appended (lacks : ¬ pool.Holds text) :
    (pool.appended text).findBytes? (ModifiedUtf8.encode text) = some pool.slots.size := by
  have absent := findBytes?_eq_none_iff.mpr lacks
  unfold findBytes? at absent ⊢
  rw [appended, Array.findIdx?_push, absent]
  simp

/-- A text that was interned is found where it is. -/
theorem intern_again (done : pool.intern text = .ok (index, pool')) :
    pool'.intern text = .ok (index, pool') := by
  by_cases short : Short text
  case neg =>
    rw [intern_of_long short] at done
    cases done
  rcases eq_of_intern done with ⟨_, rfl⟩ | ⟨lacks, rfl⟩
  · exact done
  · rw [intern_of_lacks short lacks] at done
    split at done
    case isTrue room =>
      obtain ⟨rfl, -⟩ := Prod.mk.inj (Except.ok.inj done)
      rw [intern_eq short, findBytes?_appended lacks]
    case isFalse full => cases done

/-- No old slot changes, and there is a new one exactly if the pool lacks the text. -/
theorem slots_of_intern (done : pool.intern text = .ok (index, pool')) :
    (∀ slot < pool.slots.size, pool'.slots[slot]? = pool.slots[slot]?) ∧
    (pool.Holds text → pool' = pool) ∧
    (¬ pool.Holds text → pool'.slots.size = pool.slots.size + 1) := by
  rcases eq_of_intern done with ⟨held, rfl⟩ | ⟨lacks, rfl⟩
  · exact ⟨fun _ _ => rfl, fun _ => rfl, fun lacks => absurd held lacks⟩
  · refine ⟨fun slot inside => ?_, fun held => absurd held lacks, fun _ => size_appended⟩
    rw [appended, Array.getElem?_push_lt inside, Array.getElem?_eq_getElem inside]

/-- Two texts that are interned get the same index exactly if they are the same. -/
theorem intern_index_eq_iff (bound : pool.slots.size ≤ maxSlots)
    (done : pool.intern text = .ok (index, pool')) {other : String} {index' : UInt16}
    {pool'' : ConstantPool} (later : pool'.intern other = .ok (index', pool'')) :
    index = index' ↔ text = other := by
  have interned := interned_of_intern bound done
  have interned' := interned_of_intern interned.bound later
  constructor
  · rintro rfl
    have kept : pool''.text index = .ok text := interned'.grown.text interned.text
    exact Except.ok.inj (kept.symm.trans interned'.text)
  · rintro rfl
    exact (Prod.mk.inj (Except.ok.inj ((intern_again done).symm.trans later))).1

/-- **Interning is faithful**: the index leads to the text, all slots there were are as before, and
there is one more exactly if no constant had the code of the text.  The text keeps its index, and no
other text gets it. -/
theorem intern_is_faithful (bound : pool.slots.size ≤ maxSlots)
    (done : pool.intern text = .ok (index, pool')) :
    pool'.text index = .ok text ∧
    ((∀ slot < pool.slots.size, pool'.slots[slot]? = pool.slots[slot]?) ∧
      (pool.Holds text → pool' = pool) ∧
      (¬ pool.Holds text → pool'.slots.size = pool.slots.size + 1)) ∧
    (∀ other index' pool'', pool'.intern other = .ok (index', pool'') →
      (index = index' ↔ text = other)) ∧
    pool'.intern text = .ok (index, pool') :=
  ⟨(interned_of_intern bound done).text, slots_of_intern done,
    fun _ _ _ => intern_index_eq_iff bound done, intern_again done⟩

/-- A pool with a letter in a long form, and with a wide constant. -/
def spelledPool : ConstantPool := ⟨#[.utf8 [0xC1, 0x81], .long 7, .unusable]⟩

/-- The letter is appended, since the pool lacks its code, and the next letter behind it. -/
theorem interns_letters :
    spelledPool.slots.size ≤ maxSlots ∧
    spelledPool.intern "A" = .ok (4, spelledPool.appended "A") ∧
    (spelledPool.appended "A").text 4 = .ok "A" ∧
    (spelledPool.appended "A").slots.size = 4 ∧
    (spelledPool.appended "A").intern "A" = .ok (4, spelledPool.appended "A") ∧
    (spelledPool.appended "A").intern "B" = .ok (5, (spelledPool.appended "A").appended "B") ∧
    ((4 : UInt16) = 5 ↔ "A" = "B") := by
  have short : Short "A" ∧ Short "B" := by
    unfold Short
    decide
  have bound : spelledPool.slots.size ≤ maxSlots := by decide
  have lacks : ¬ spelledPool.Holds "A" := by decide
  have done : spelledPool.intern "A" = .ok (4, spelledPool.appended "A") :=
    intern_of_lacks short.1 lacks
  have later : (spelledPool.appended "A").intern "B" =
      .ok (5, (spelledPool.appended "A").appended "B") :=
    intern_of_lacks short.2 (by decide)
  obtain ⟨read, ⟨-, -, grown⟩, apart, again⟩ := intern_is_faithful bound done
  exact ⟨bound, done, read, grown lacks, again, later, apart _ _ _ later⟩

end ConstantPool

end ClassNaming
