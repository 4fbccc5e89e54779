import ClassNaming.Proofs.ClassFile.Interning
import ClassNaming.Proofs.ClassFile.RoundTrip
import Mathlib.Data.List.Infix

/-!
# Pools that grow

A pool is built by pushing constants and interning texts, in any order, and goes on as it was when
one of these fails.  Whatever is asked of it, it stays small enough for its count field, its wide
constants keep their second slots, and an index that was given once leads to the same constant for
ever.

All of this comes down to one law on what a single addition can do (`ConstantPool.Ending`).  A run
only repeats it: slots are never changed, only added behind the others, and each push adds those of
one constant.

## Main Definitions

* `Addition` - a constant to be pushed, or a text to be interned
* `ConstantPool.perform`, `ConstantPool.run` - one addition, and one after the other
* `ConstantPool.Ending` - the ways that an addition can end
* `ConstantPool.pushedEntries` - what a run pushes, with the indices that are returned for it

## Main Results

* `ConstantPool.ending_perform` - an addition ends in one of these ways
* `ConstantPool.entries_run` - a run pushes what is listed afterwards
* `ConstantPool.run_stays_sound` - what holds of a pool after every run
-/

namespace ClassNaming

/-- What a pool is asked to hold. -/
inductive Addition where
  | push (constant : Constant)
  | intern (text : String)
  deriving Repr, DecidableEq

namespace Addition

/-- The constant that is asked for. -/
def constant : Addition → Constant
  | push constant => constant
  | intern text => .utf8 (ModifiedUtf8.encode text)

/-- No second slot is asked for, as these come with their wide constants. -/
def Proper (addition : Addition) : Prop := addition.constant ≠ .unusable

end Addition

/-! ### Second slots -/

/-- Two lists of slots are paired if each of them is. -/
theorem Paired.append {front back : List Constant} (first : Paired front) (second : Paired back) :
    Paired (front ++ back) where
  second i c there wide := by
    rcases Nat.lt_or_ge i front.length with inside | behind
    · rw [List.getElem?_append_left inside] at there
      have next := first.second i c there wide
      obtain ⟨inside', -⟩ := List.getElem?_eq_some_iff.mp next
      rw [List.getElem?_append_left inside', next]
    · rw [List.getElem?_append_right behind] at there
      have next := second.second _ c there wide
      rw [List.getElem?_append_right (by omega), ← next]
      congr 1
      omega
  only i there := by
    rcases Nat.lt_or_ge i front.length with inside | behind
    · rw [List.getElem?_append_left inside] at there
      obtain ⟨j, c, rfl, before, wide⟩ := first.only i there
      exact ⟨j, c, rfl, by rw [List.getElem?_append_left (by omega), before], wide⟩
    · rw [List.getElem?_append_right behind] at there
      obtain ⟨j, c, same, before, wide⟩ := second.only _ there
      refine ⟨front.length + j, c, by omega, ?_, wide⟩
      rw [List.getElem?_append_right (by omega), Nat.add_sub_cancel_left, before]

theorem paired_nil : Paired [] where
  second _ _ there := by cases there
  only _ there := by cases there

namespace ConstantPool

variable {pool pool' : ConstantPool} {a : Addition} {later : List Addition} {index : UInt16}
  {c : Constant}

theorem length_slotsOf_pos (c : Constant) : 0 < (slotsOf c).length := by
  rw [length_slotsOf]
  split <;> decide

/-- The slots of a proper constant are paired. -/
theorem paired_slotsOf (proper : c ≠ .unusable) : Paired (slotsOf c) := by
  unfold slotsOf
  split
  case isTrue wide =>
    refine ⟨fun i last there isWide => ?_, fun i there => ?_⟩
    · match i with
      | 0 => rfl
      | 1 => cases there; cases isWide
      | i + 2 => cases there
    · match i with
      | 0 => exact absurd (Option.some.inj there) proper
      | 1 => exact ⟨0, c, rfl, rfl, wide⟩
      | i + 2 => cases there
  case isFalse narrow =>
    refine ⟨fun i last there isWide => ?_, fun i there => ?_⟩
    · match i with
      | 0 => cases there; exact absurd isWide narrow
      | i + 1 => cases there
    · match i with
      | 0 => exact absurd (Option.some.inj there) proper
      | i + 1 => cases there

/-! ### One addition -/

/-- Performs an addition. -/
def perform (pool : ConstantPool) : Addition → Except ClassFileError (UInt16 × ConstantPool)
  | .push constant => pool.push constant
  | .intern text => pool.intern text

/-- The pool after an addition.  One that fails leaves it as it was. -/
def after (pool : ConstantPool) (addition : Addition) : ConstantPool :=
  match pool.perform addition with
  | .ok (_, pool') => pool'
  | .error _ => pool

/-- After an addition that is done, the pool is the one that it returned. -/
theorem after_of_ok (done : pool.perform a = .ok (index, pool')) : pool.after a = pool' := by
  rw [after, done]

/-- After one that fails, the pool is as it was. -/
theorem after_of_error {e : ClassFileError} (failed : pool.perform a = .error e) :
    pool.after a = pool := by
  rw [after, failed]

/-- Whether an addition pushes its constant.  A text that the pool holds is not pushed again. -/
def pushes (pool : ConstantPool) : Addition → Bool
  | .push _ => true
  | .intern text => !decide (pool.Holds text)

/-- What an addition pushes, with the index that is returned for it. -/
def pushedEntry? (pool : ConstantPool) (addition : Addition) : Option (UInt16 × Constant) :=
  match pool.perform addition with
  | .ok (index, _) => if pool.pushes addition then some (index, addition.constant) else none
  | .error _ => none

/-- The pool with a constant in its last slots. -/
def pushed (pool : ConstantPool) (constant : Constant) : ConstantPool :=
  ⟨pool.slots ++ (slotsOf constant).toArray⟩

/-- The ways that an addition can end. -/
inductive Ending (pool : ConstantPool) :
    Addition → Except ClassFileError (UInt16 × ConstantPool) → Prop
  | pushed {a : Addition} (new : pool.pushes a = true)
      (room : pool.slots.size + (slotsOf a.constant).length ≤ maxSlots) :
      Ending pool a (.ok (UInt16.ofNat (pool.slots.size + 1), pool.pushed a.constant))
  | found {text : String} {index : UInt16} (old : pool.pushes (.intern text) = false)
      (there : pool.get? index = some (.utf8 (ModifiedUtf8.encode text))) :
      Ending pool (.intern text) (.ok (index, pool))
  | full {a : Addition} (new : pool.pushes a = true)
      (full : maxSlots < pool.slots.size + (slotsOf a.constant).length) :
      Ending pool a (.error .poolFull)
  | tooLong {text : String} (long : 65535 < (ModifiedUtf8.encode text).length) :
      Ending pool (.intern text) (.error (.textTooLong (ModifiedUtf8.encode text).length))

/-- An addition that asks for a new constant ends as a push does. -/
theorem ending_push (new : pool.pushes a = true) : pool.Ending a (pool.push a.constant) := by
  rw [push_eq]
  split
  case isTrue room => exact .pushed new room
  case isFalse full => exact .full new (Nat.not_le.mp full)

/-- **What one addition can do.** -/
theorem ending_perform (bound : pool.slots.size ≤ maxSlots) (a : Addition) :
    pool.Ending a (pool.perform a) := by
  cases a with
  | push c => exact ending_push rfl
  | intern text =>
    change pool.Ending (.intern text) (pool.intern text)
    by_cases short : Short text
    case neg =>
      rw [intern_of_long short]
      exact .tooLong (Nat.not_le.mp short)
    by_cases held : pool.Holds text
    case pos =>
      obtain ⟨index, found⟩ := exists_intern_of_holds short held
      rw [found]
      exact .found (by simp [pushes, held]) (interned_of_intern bound found).there
    case neg =>
      have new : pool.pushes (.intern text) = true := by simp [pushes, held]
      rw [intern_eq_push short held]
      exact ending_push new

/-! ### What a pushed constant changes -/

/-- The pool grows by the slots of the constant. -/
theorem size_pushed : (pool.pushed c).slots.size = pool.slots.size + (slotsOf c).length := by
  simp [pushed]

/-- They come behind the others. -/
theorem toList_pushed : (pool.pushed c).slots.toList = pool.slots.toList ++ slotsOf c := by
  simp [pushed]

/-- The new entry is the last one, and its index is that of the first new slot. -/
theorem entries_pushed (proper : c ≠ .unusable) : (pool.pushed c).entries =
    pool.entries ++ [(UInt16.ofNat (pool.slots.size + 1), c)] := by
  unfold entries
  rw [toList_pushed, List.zipIdx_append, List.filterMap_append, Array.length_toList,
    Nat.add_comm 1]
  congr 1
  unfold slotsOf
  split <;> simp [proper]

/-- Its constant is found under the new index. -/
theorem get?_pushed (room : pool.slots.size < maxSlots) :
    (pool.pushed c).get? (UInt16.ofNat (pool.slots.size + 1)) = some c := by
  rw [get?_ofNat_succ room, ← Array.getElem?_toList, toList_pushed]
  unfold slotsOf
  split <;> simp

/-! ### What every addition keeps -/

/-- An addition pushes its constant, or leaves the pool as it is. -/
theorem after_cases (bound : pool.slots.size ≤ maxSlots) (a : Addition) :
    (pool.slots.size + (slotsOf a.constant).length ≤ maxSlots ∧
      pool.after a = pool.pushed a.constant ∧
      pool.pushedEntry? a = some (UInt16.ofNat (pool.slots.size + 1), a.constant)) ∨
    (pool.after a = pool ∧ pool.pushedEntry? a = none) := by
  have ends := ending_perform bound a
  unfold after pushedEntry?
  generalize pool.perform a = outcome at ends
  cases ends with
  | pushed new room => exact .inl ⟨room, rfl, if_pos new⟩
  | found old _ => exact .inr ⟨rfl, if_neg (by simp [old])⟩
  | full | tooLong => exact .inr ⟨rfl, rfl⟩

/-- No addition makes a pool too large. -/
theorem bound_after (bound : pool.slots.size ≤ maxSlots) (a : Addition) :
    (pool.after a).slots.size ≤ maxSlots := by
  rcases after_cases bound a with ⟨room, same, -⟩ | ⟨same, -⟩
  · rw [same, size_pushed]
    exact room
  · rw [same]
    exact bound

/-- No addition changes the slots that are there. -/
theorem prefix_after (bound : pool.slots.size ≤ maxSlots) (a : Addition) :
    pool.slots.toList <+: (pool.after a).slots.toList := by
  rcases after_cases bound a with ⟨-, same, -⟩ | ⟨same, -⟩
  · rw [same, toList_pushed]
    exact List.prefix_append _ _
  · rw [same]

/-- Proper additions keep the slots paired. -/
theorem paired_after (bound : pool.slots.size ≤ maxSlots) (paired : Paired pool.slots.toList)
    (proper : a.Proper) : Paired (pool.after a).slots.toList := by
  rcases after_cases bound a with ⟨-, same, -⟩ | ⟨same, -⟩
  · rw [same, toList_pushed]
    exact paired.append (paired_slotsOf proper)
  · rw [same]
    exact paired

/-- What a successful addition returns leads to the constant that was asked for. -/
theorem get?_of_perform (bound : pool.slots.size ≤ maxSlots)
    (done : pool.perform a = .ok (index, pool')) : pool'.get? index = some a.constant := by
  have ends := ending_perform bound a
  rw [done] at ends
  cases ends with
  | pushed _ room =>
    have filled := length_slotsOf_pos a.constant
    exact get?_pushed (by omega)
  | found _ there => exact there

/-! ### Runs -/

/-- The pool after additions, one after the other. -/
def run (pool : ConstantPool) (additions : List Addition) : ConstantPool :=
  additions.foldl after pool

/-- What additions push, one after the other, with the indices that are returned for it. -/
def pushedEntries (pool : ConstantPool) : List Addition → List (UInt16 × Constant)
  | [] => []
  | a :: later => (pool.pushedEntry? a).toList ++ (pool.after a).pushedEntries later

theorem run_cons : pool.run (a :: later) = (pool.after a).run later := rfl

/-- Additions are made one after another. -/
theorem run_append (first : List Addition) :
    pool.run (first ++ later) = (pool.run first).run later :=
  List.foldl_append

/-- No run makes a pool too large. -/
theorem bound_run (bound : pool.slots.size ≤ maxSlots) (additions : List Addition) :
    (pool.run additions).slots.size ≤ maxSlots := by
  induction additions generalizing pool with
  | nil => exact bound
  | cons a later ih => exact ih (bound_after bound a)

/-- A run of proper additions keeps the slots paired. -/
theorem paired_run (bound : pool.slots.size ≤ maxSlots) (paired : Paired pool.slots.toList)
    {additions : List Addition} (proper : ∀ a ∈ additions, a.Proper) :
    Paired (pool.run additions).slots.toList := by
  induction additions generalizing pool with
  | nil => exact paired
  | cons a later ih =>
    obtain ⟨first, rest⟩ := List.forall_mem_cons.mp proper
    exact ih (bound_after bound a) (paired_after bound paired first) rest

/-- No run changes the slots that are there. -/
theorem prefix_run (bound : pool.slots.size ≤ maxSlots) (additions : List Addition) :
    pool.slots.toList <+: (pool.run additions).slots.toList := by
  induction additions generalizing pool with
  | nil => exact List.prefix_rfl
  | cons a later ih => exact (prefix_after bound a).trans (ih (bound_after bound a))

/-- A run lists what it pushed behind what was listed before. -/
theorem entries_run (bound : pool.slots.size ≤ maxSlots) {additions : List Addition}
    (proper : ∀ a ∈ additions, a.Proper) :
    (pool.run additions).entries = pool.entries ++ pool.pushedEntries additions := by
  induction additions generalizing pool with
  | nil => exact (List.append_nil _).symm
  | cons a later ih =>
    obtain ⟨first, rest⟩ := List.forall_mem_cons.mp proper
    rw [run_cons, pushedEntries, ih (bound_after bound a) rest]
    rcases after_cases bound a with ⟨-, same, entry⟩ | ⟨same, entry⟩
    · rw [same, entry, entries_pushed first, List.append_assoc]
      rfl
    · rw [same, entry]
      rfl

/-- A new index fits into 16 bits if there is room. -/
theorem toNat_newIndex (room : pool.slots.size + (slotsOf c).length ≤ maxSlots) :
    (UInt16.ofNat (pool.slots.size + 1)).toNat = pool.slots.size + 1 := by
  have filled := length_slotsOf_pos c
  unfold maxSlots at room
  rw [UInt16.toNat_ofNat']
  exact Nat.mod_eq_of_lt (by omega)

/-- Whatever is pushed gets an index beyond the slots that there were. -/
theorem lt_of_mem_pushedEntries (bound : pool.slots.size ≤ maxSlots) {additions : List Addition} :
    ∀ entry ∈ pool.pushedEntries additions, pool.slots.size < entry.1.toNat := by
  induction additions generalizing pool with
  | nil => simp [pushedEntries]
  | cons a later ih =>
    intro entry listed
    have grown := (prefix_after bound a).length_le
    rw [pushedEntries, List.mem_append] at listed
    rcases listed with now | behind
    · rcases after_cases bound a with ⟨room, -, same⟩ | ⟨-, same⟩
      · rw [same] at now
        obtain rfl := List.mem_singleton.mp now
        rw [toNat_newIndex room]
        exact Nat.lt_succ_self _
      · rw [same] at now
        cases now
    · have beyond := ih (bound_after bound a) entry behind
      simp only [Array.length_toList] at grown
      omega

/-- Indices are returned in increasing order. -/
theorem pairwise_pushedEntries (bound : pool.slots.size ≤ maxSlots) (additions : List Addition) :
    ((pool.pushedEntries additions).map Prod.fst).Pairwise (· < ·) := by
  induction additions generalizing pool with
  | nil => exact .nil
  | cons a later ih =>
    have rest := ih (bound_after bound a)
    rw [pushedEntries]
    rcases after_cases bound a with ⟨room, after, same⟩ | ⟨-, same⟩
    · rw [same, Option.toList_some, List.singleton_append, List.map_cons, List.pairwise_cons]
      refine ⟨fun index listed => ?_, rest⟩
      obtain ⟨entry, there, rfl⟩ := List.mem_map.mp listed
      have last := lt_of_mem_pushedEntries (bound_after bound a) entry there
      have filled := length_slotsOf_pos a.constant
      rw [after, size_pushed] at last
      rw [UInt16.lt_iff_toNat_lt, toNat_newIndex room]
      omega
    · rw [same]
      exact rest

/-! ### What holds after every run -/

/-- An index that was returned in a run leads to its constant from then on. -/
theorem get?_of_run (bound : pool.slots.size ≤ maxSlots) {before : List Addition}
    (done : (pool.run before).perform a = .ok (index, pool')) (later : List Addition) :
    (pool.run (before ++ a :: later)).get? index = some a.constant := by
  have bound := bound_run bound before
  have there := get?_of_perform bound done
  have grown := prefix_run (bound_after bound a) later
  rw [run_append, run_cons]
  rw [after_of_ok done] at grown ⊢
  rw [get?_eq_of_grown grown (le_size_of_get? there), there]

/-- **A pool stays sound through every run** of additions to a new pool.  Its count does not wrap,
and wide constants have their second slots.  It lists what was pushed, at increasing indices.  An
index that is returned leads to its constant at once and for ever.  An addition that fails changes
nothing, and only fails because the slots do not suffice or the text is too long. -/
theorem run_stays_sound (before : List Addition) (proper : ∀ a ∈ before, a.Proper) :
    ((empty.run before).slots.size ≤ maxSlots ∧
      (empty.run before).count.toNat = (empty.run before).slots.size + 1) ∧
    Paired (empty.run before).slots.toList ∧
    (empty.run before).entries = empty.pushedEntries before ∧
    ((empty.pushedEntries before).map Prod.fst).Pairwise (· < ·) ∧
    (∀ a index pool', (empty.run before).perform a = .ok (index, pool') →
      index ≠ 0 ∧ ∀ later, (empty.run (before ++ a :: later)).get? index = some a.constant) ∧
    ∀ a e, (empty.run before).perform a = .error e →
      empty.run (before ++ [a]) = empty.run before ∧
      (e = .poolFull ∧ maxSlots < (empty.run before).slots.size + (slotsOf a.constant).length ∨
        ∃ text, a = .intern text ∧ e = .textTooLong (ModifiedUtf8.encode text).length ∧
          65535 < (ModifiedUtf8.encode text).length) := by
  have new : empty.slots.size ≤ maxSlots := by decide
  have bound := bound_run new before
  refine ⟨⟨bound, toNat_count bound⟩, paired_run new paired_nil proper, entries_run new proper,
    pairwise_pushedEntries new before, fun a index pool' done => ⟨?_, get?_of_run new done⟩,
    fun a e failed => ⟨?_, ?_⟩⟩
  · rintro rfl
    cases get?_of_perform bound done
  · rw [run_append]
    exact after_of_error failed
  · have ends := ending_perform bound a
    rw [failed] at ends
    cases ends with
    | full _ full => exact .inl ⟨rfl, full⟩
    | tooLong long => exact .inr ⟨_, rfl, rfl, long⟩

/-- A wide constant, and a text that is interned twice. -/
def mixedRun : List Addition := [.push (.long 7), .intern "x", .intern "x", .push (.classRef 3)]

/-- The wide constant takes two slots, and the text has one entry; no later addition changes what
was added. -/
theorem entries_mixedRun : (∀ a ∈ mixedRun, a.Proper) ∧
    (empty.run mixedRun).entries = [(1, .long 7), (3, .utf8 [0x78]), (4, .classRef 3)] ∧
    ∀ later, (empty.run (mixedRun ++ .push (.double 1) :: later)).get? 5 = some (.double 1) := by
  have proper : ∀ a ∈ mixedRun, a.Proper := by
    unfold Addition.Proper
    decide
  have next : (empty.run mixedRun).perform (.push (.double 1)) =
      .ok (5, (empty.run mixedRun).pushed (.double 1)) :=
    push_eq_ok_iff.mpr ⟨by decide +kernel, by decide +kernel, rfl⟩
  obtain ⟨-, -, listed, -, returned, -⟩ := run_stays_sound mixedRun proper
  exact ⟨proper, listed.trans (by decide +kernel), (returned _ _ _ next).2⟩

end ConstantPool

end ClassNaming
