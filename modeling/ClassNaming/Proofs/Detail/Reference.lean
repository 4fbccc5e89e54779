import Mathlib.Data.List.TakeWhile
import ClassNaming.Detail.Renamer
import ClassNaming.Proofs.Text.Occurrence

/-!
# The first reference of a detail

`FirstReference` says what `firstReference?` finds without speaking of how it searches: the text in
three parts, of which the middle one starts with the sentinel, holds no terminator and is followed
by one (or by nothing), and before which the sentinel never begins.

## Main Definitions

* `FirstReference` - the first reference of a text, with what lies before and behind it
* `Apart` - a text into which no name runs
* `Inert` - a front of complete pieces without a sentinel

## Main Results

* `firstReference?_eq_some_iff`, `firstReference?_eq_none_iff` - the search finds exactly that
* `FirstReference.frame` - an inert front and a text apart do not change what the search finds
* `Renamer.pass?_eq_some` - one pass, with the text before the reference left alone
-/

namespace ClassNaming.Detail

variable {sentinel text before name after : List Char}

/-- A text that is empty or begins with a terminator: no name runs into it. -/
def Apart (text : List Char) : Prop := text = [] ∨ ∃ tail, text = terminator :: tail

/-- What begins a text with such a text behind it begins the text, if it holds no terminator. -/
theorem Apart.prefix_of_append {word : List Char} (fresh : terminator ∉ word) (apart : Apart after)
    (starts : word <+: text ++ after) : word <+: text := by
  rcases apart with rfl | ⟨tail, rfl⟩
  · simpa using starts
  · exact (Text.prefix_append_separator_iff fresh).mp starts

theorem Apart.append (apart : Apart text) (after_apart : Apart after) : Apart (text ++ after) := by
  rcases apart with rfl | ⟨tail, rfl⟩
  · simpa using after_apart
  · exact .inr ⟨tail ++ after, rfl⟩

/-- A replacement leaves such a text such a text. -/
theorem Apart.replaceAll {word new : List Char} (word_ne : word ≠ []) (closed : terminator ∉ word)
    (apart : Apart text) : Apart (Text.replaceAll word new text) := by
  rcases apart with rfl | ⟨tail, rfl⟩
  · exact .inl rfl
  · refine .inr ⟨Text.replaceAll word new tail, ?_⟩
    exact Text.replaceAll_append_separator word_ne closed []

/-- The first reference of a text, with what lies before and behind it. -/
structure FirstReference (sentinel text before name after : List Char) : Prop where
  whole : text = before ++ name ++ after
  starts : sentinel <+: name
  closed : terminator ∉ name
  ends : Apart after
  first : ∀ front back, text = front ++ back → sentinel <+: back → before.length ≤ front.length

theorem firstReference?_eq_none_iff :
    firstReference? sentinel text = none ↔ ¬ sentinel <:+: text := by
  rw [← Text.cut?_eq_none_iff, firstReference?]
  cases Text.cut? sentinel text <;> simp

/-- What a text goes on with from its first terminator on. -/
theorem apart_dropWhile (text : List Char) : Apart (text.dropWhile (· ≠ terminator)) := by
  induction text with
  | nil => exact .inl rfl
  | cons c rest ih =>
    by_cases stop : c = terminator
    · exact .inr ⟨rest, by simp [stop]⟩
    · simpa [List.dropWhile_cons, stop] using ih

/-- The search finds the first reference, and finds it wherever there is one. -/
theorem firstReference?_eq_some_iff (fresh : terminator ∉ sentinel) :
    firstReference? sentinel text = some (before, name, after) ↔
      FirstReference sentinel text before name after := by
  constructor
  · intro found
    unfold firstReference? at found
    split at found
    · cases found
    case h_2 front back cut =>
      obtain ⟨rfl, rfl, rfl⟩ : front = before ∧ back.takeWhile (· ≠ terminator) = name ∧
        back.dropWhile (· ≠ terminator) = after := by simpa using found
      obtain ⟨whole, starts, first⟩ := Text.cut?_eq_some_iff.mp cut
      have joined : back.takeWhile (· ≠ terminator) ++ back.dropWhile (· ≠ terminator) = back :=
        List.takeWhile_append_dropWhile
      refine ⟨by rw [List.append_assoc, joined, whole], ?_, ?_, apart_dropWhile back, first⟩
      · rw [← joined] at starts
        exact (apart_dropWhile back).prefix_of_append fresh starts
      · intro inside
        have other := List.mem_takeWhile_imp inside
        simp at other
  · rintro ⟨whole, starts, closed, ends, first⟩
    have cut : Text.cut? sentinel text = some (before, name ++ after) := by
      refine Text.cut?_eq_some_iff.mpr ⟨by rw [whole, List.append_assoc], ?_, first⟩
      exact starts.trans (List.prefix_append _ _)
    have keeps : ∀ c ∈ name, decide (c ≠ terminator) = true := fun c inside =>
      decide_eq_true fun same => closed (same ▸ inside)
    rw [firstReference?, cut]
    simp only
    rw [List.takeWhile_append_of_pos keeps, List.dropWhile_append_of_pos keeps]
    rcases ends with rfl | ⟨tail, rfl⟩ <;> simp

namespace FirstReference

variable (reference : FirstReference sentinel text before name after)
include reference

theorem name_ne_nil (sentinel_ne : sentinel ≠ []) : name ≠ [] := by
  rintro rfl
  exact sentinel_ne (List.prefix_nil.mp reference.starts)

/-- The name cannot occur before the first reference, since the sentinel begins it. -/
theorem replaceAll_eq (sentinel_ne : sentinel ≠ []) (new : List Char) :
    Text.replaceAll name new text = before ++ new ++ Text.replaceAll name new after := by
  rw [reference.whole, Text.replaceAll_first (reference.name_ne_nil sentinel_ne)]
  intro front back whole starts
  exact reference.first front back (by rw [reference.whole, whole]) (reference.starts.trans starts)

end FirstReference

/-- The fragments so far only stand in front of those that follow. -/
theorem fragmentsFrom_eq (done : List Fragment) (fuel : Nat) (text : List Char) :
    fragmentsFrom sentinel done fuel text =
      done.reverse ++ fragmentsFrom sentinel [] fuel text := by
  induction fuel generalizing done text with
  | zero => simp [fragmentsFrom]
  | succ fuel ih =>
    unfold fragmentsFrom
    split
    · simp
    · rw [ih, ih [_, _]]
      simp

/-! ### A reference inside a longer text -/

variable {front front' back core : List Char}

/-- A front of a text that no pass changes: it is empty, or it ends in a terminator and holds no
sentinel. -/
def Inert (sentinel front : List Char) : Prop :=
  front = [] ∨ ∃ pieces, front = pieces ++ [terminator] ∧ ¬ sentinel <:+: pieces

theorem Inert.append (fresh : terminator ∉ sentinel) (inert : Inert sentinel front)
    (inert' : Inert sentinel front') : Inert sentinel (front ++ front') := by
  rcases inert with rfl | ⟨pieces, rfl, free⟩
  · simpa using inert'
  rcases inert' with rfl | ⟨pieces', rfl, free'⟩
  · exact .inr ⟨pieces, by simp, free⟩
  · refine .inr ⟨pieces ++ terminator :: pieces', by simp, ?_⟩
    rw [Text.infix_append_separator_iff fresh, not_or]
    exact ⟨free, free'⟩

/-- No sentinel begins in an inert front, whatever follows it. -/
theorem Inert.not_begins (fresh : terminator ∉ sentinel) (inert : Inert sentinel front)
    {text passed left : List Char} (split : front = passed ++ left) (left_ne : left ≠ []) :
    ¬ sentinel <+: left ++ text := by
  rcases inert with rfl | ⟨pieces, rfl, free⟩
  · exact absurd (List.append_eq_nil_iff.mp split.symm).2 left_ne
  · obtain ⟨middle, rfl, rfl⟩ : ∃ middle, left = middle ++ [terminator] ∧
        pieces = passed ++ middle := by
      obtain ⟨middle, last, rfl⟩ := (List.eq_nil_or_concat' left).resolve_left left_ne
      rw [← List.append_assoc] at split
      obtain ⟨pieces_eq, last_eq⟩ := List.append_inj' split rfl
      exact ⟨middle, by rw [last_eq], pieces_eq⟩
    intro starts
    rw [List.append_assoc, List.singleton_append,
      Text.prefix_append_separator_iff fresh] at starts
    exact free (starts.isInfix.trans (List.suffix_append _ _).isInfix)

/-- Text behind that is apart does not change what the first reference is. -/
theorem FirstReference.append (fresh : terminator ∉ sentinel)
    (reference : FirstReference sentinel core before name after) (apart : Apart back) :
    FirstReference sentinel (core ++ back) before name (after ++ back) where
  whole := by simp [reference.whole]
  starts := reference.starts
  closed := reference.closed
  ends := reference.ends.append apart
  first := by
    intro passed found whole starts
    rcases List.append_eq_append_iff.mp whole with ⟨rest, rfl, -⟩ | ⟨rest, rfl, rfl⟩
    · rw [reference.whole]
      simp only [List.length_append]
      omega
    · exact reference.first passed rest rfl (apart.prefix_of_append fresh starts)

/-- Nor does text in front in which no sentinel begins. -/
theorem FirstReference.behind (reference : FirstReference sentinel text before name after)
    (quiet : ∀ passed left, front = passed ++ left → left ≠ [] → ¬ sentinel <+: left ++ text) :
    FirstReference sentinel (front ++ text) (front ++ before) name after where
  whole := by simp [reference.whole]
  starts := reference.starts
  closed := reference.closed
  ends := reference.ends
  first := by
    intro passed found whole starts
    obtain ⟨inner, rfl, split⟩ : ∃ inner, passed = front ++ inner ∧ text = inner ++ found := by
      rcases List.append_eq_append_iff.mp whole with here | ⟨left, split, rfl⟩
      · exact here
      · rcases left with - | ⟨c, left⟩
        · exact ⟨[], by simpa using split.symm, rfl⟩
        · exact absurd starts (quiet _ _ split (by simp))
    rw [List.length_append, List.length_append, Nat.add_le_add_iff_left]
    exact reference.first inner found split starts

/-- The first reference of the core is the first one of the whole text. -/
theorem FirstReference.frame (fresh : terminator ∉ sentinel)
    (reference : FirstReference sentinel core before name after) (inert : Inert sentinel front)
    (apart : Apart back) :
    FirstReference sentinel (front ++ core ++ back) (front ++ before) name (after ++ back) := by
  rw [List.append_assoc]
  exact (reference.append fresh apart).behind fun _ _ split left_ne =>
    inert.not_begins fresh split left_ne

end ClassNaming.Detail

namespace ClassNaming

namespace NamingMode

theorem sentinel_ne_nil (mode : NamingMode) : mode.sentinel.toList ≠ [] := by
  cases mode <;> decide

theorem terminator_notMem_sentinel (mode : NamingMode) :
    Detail.terminator ∉ mode.sentinel.toList := by
  cases mode <;> decide

/-- Both sentinels begin with the text that defusing breaks. -/
theorem net_prefix_sentinel (mode : NamingMode) : ['n', 'e', 't'] <+: mode.sentinel.toList := by
  cases mode <;> decide

theorem marker_notMem_sentinel (mode : NamingMode) :
    Renamer.marker ∉ mode.sentinel.toList := by
  cases mode <;> decide

end NamingMode

namespace Renamer

variable {renamer : Renamer} {text before name after : List Char}

/-- What a pass puts in the place of a name: the new name, or the defused old one. -/
def replacement (renamer : Renamer) (name : List Char) : List Char :=
  (renamer.lookup? name).getD (defuse name)

theorem firstReference?_eq_some_iff :
    Detail.firstReference? renamer.sentinel text = some (before, name, after) ↔
      Detail.FirstReference renamer.sentinel text before name after :=
  Detail.firstReference?_eq_some_iff renamer.mode.terminator_notMem_sentinel

/-- One pass: everything before the reference is left alone. -/
theorem pass?_eq_some (reference : Detail.FirstReference renamer.sentinel text before name after) :
    renamer.pass? text = some (before ++ renamer.replacement name ++
      Text.replaceAll name (renamer.replacement name) after) := by
  rw [pass?, firstReference?_eq_some_iff.mpr reference]
  exact congrArg some (reference.replaceAll_eq renamer.mode.sentinel_ne_nil _)

theorem pass?_eq_none_iff : renamer.pass? text = none ↔ ¬ renamer.sentinel <:+: text := by
  rw [← Detail.firstReference?_eq_none_iff, pass?]
  cases Detail.firstReference? renamer.sentinel text <;> simp

/-- A pass is made at the first reference. -/
theorem exists_reference_of_pass? {next : List Char} (pass : renamer.pass? text = some next) :
    ∃ before name after, Detail.FirstReference renamer.sentinel text before name after := by
  unfold pass? at pass
  split at pass
  · cases pass
  case h_2 before name after found =>
    exact ⟨before, name, after, firstReference?_eq_some_iff.mp found⟩

end Renamer

end ClassNaming
