import Mathlib.Data.List.Infix
import ClassNaming.Text.Occurrence

/-!
# Laws of searching and replacing

The searches of `ClassNaming.Text.Occurrence` carry accumulators, so that they run in constant
stack.  This module trades the accumulators for equations and characterises every search by the
prefix and infix relations of lists.

A replacement is best thought of as a walk over the text: at every place either the word begins
there, and is passed as a whole, or one character is kept.  `replaceAll_append_word` and
`replaceAll_cons` are the two steps of that walk, and `replaceAll_induction` is the induction that
follows it.

## Main Definitions

* `occurrences` - the number of places of a text at which a word begins

## Main Results

* `occursIn_iff_infix`, `cut?_eq_none_iff`, `cut?_eq_some_iff` - what the searches find
* `replaceAll_first` - a replacement leaves everything before the first occurrence alone
* `prefix_replaceAll` - what a replaced text begins with, the text began with already, unless an
  occurrence lies so early that its replacement takes part
* `splitAtEach_eq_splitOn` - splitting is that of the library
-/

namespace ClassNaming.Text

variable {word new text before rest found : List Char} {c : Char}

/-! ### Finding a word -/

/-- A word occurs in a text exactly if it is an infix of it. -/
theorem occursIn_iff_infix : occursIn word text = true ↔ word <:+: text := by
  induction text with
  | nil => simp [occursIn]
  | cons c rest ih =>
    rw [occursIn, List.infix_cons_iff]
    by_cases starts : word <+: c :: rest
    · simp [starts]
    · simp [starts, ih]

theorem occursIn_eq_false_iff : occursIn word text = false ↔ ¬ word <:+: text := by
  rw [← occursIn_iff_infix, Bool.not_eq_true]

/-- The accumulator of a cut only stands in front of what is cut off. -/
theorem cutFrom?_eq (passed : List Char) (text : List Char) :
    cutFrom? word passed text =
      (cut? word text).map fun parts => (passed.reverse ++ parts.1, parts.2) := by
  induction text generalizing passed with
  | nil => by_cases empty : word = [] <;> simp [cut?, cutFrom?, empty]
  | cons c rest ih =>
    unfold cut? cutFrom?
    split
    · simp
    · rw [ih, ih [c]]
      cases cut? word rest <;> simp

@[simp] theorem cut?_nil : cut? word [] = if word = [] then some ([], []) else none := by
  simp [cut?, cutFrom?]

theorem cut?_cons : cut? word (c :: rest) =
    if word <+: c :: rest then some ([], c :: rest)
    else (cut? word rest).map fun parts => (c :: parts.1, parts.2) := by
  rw [cut?, cutFrom?, cutFrom?_eq]
  simp

/-- A text is not cut exactly if the word does not occur in it. -/
theorem cut?_eq_none_iff : cut? word text = none ↔ ¬ word <:+: text := by
  induction text with
  | nil => simp
  | cons c rest ih =>
    rw [cut?_cons, List.infix_cons_iff]
    by_cases starts : word <+: c :: rest
    · simp [starts]
    · simp [starts, ih]

/-- A text is cut at the word, with nothing before that place at which the word begins. -/
theorem cut?_eq_some_iff : cut? word text = some (before, found) ↔
    text = before ++ found ∧ word <+: found ∧
      ∀ front back, text = front ++ back → word <+: back → before.length ≤ front.length := by
  induction text generalizing before with
  | nil =>
    constructor
    · intro cut
      obtain ⟨rfl, rfl, rfl⟩ : word = [] ∧ before = [] ∧ found = [] := by
        simpa [and_assoc, eq_comm] using cut
      simp
    · rintro ⟨whole, starts, -⟩
      obtain ⟨rfl, rfl⟩ : before = [] ∧ found = [] := by simpa using whole.symm
      simp [List.prefix_nil.mp starts]
  | cons c rest ih =>
    rw [cut?_cons]
    by_cases starts : word <+: c :: rest
    · rw [if_pos starts]
      constructor
      · intro cut
        obtain ⟨rfl, rfl⟩ : [] = before ∧ c :: rest = found := by simpa using cut
        exact ⟨rfl, starts, fun _ _ _ _ => Nat.zero_le _⟩
      · rintro ⟨whole, -, first⟩
        have none : before = [] := by
          simpa using first [] (c :: rest) rfl starts
        simp [none] at whole ⊢
        exact whole
    · rw [if_neg starts]
      constructor
      · intro cut
        obtain ⟨⟨front, back⟩, cutRest, parts⟩ := Option.map_eq_some_iff.mp cut
        obtain ⟨rfl, rfl⟩ : c :: front = before ∧ back = found := by simpa using parts
        obtain ⟨rfl, startsBack, first⟩ := ih.mp cutRest
        refine ⟨rfl, startsBack, fun front' back' whole startsBack' => ?_⟩
        cases front' with
        | nil => exact absurd (by simpa [whole] using startsBack') starts
        | cons d front' =>
          have tails : front ++ back = front' ++ back' := (List.cons.inj whole).2
          simpa using first front' back' tails startsBack'
      · rintro ⟨whole, startsFound, first⟩
        cases before with
        | nil => exact absurd (by simpa [whole] using startsFound) starts
        | cons d before =>
          obtain ⟨rfl, rfl⟩ : c = d ∧ rest = before ++ found := by simpa using whole
          have cutRest : cut? word (before ++ found) = some (before, found) := by
            refine ih.mpr ⟨rfl, startsFound, fun front back tails startsBack => ?_⟩
            simpa using first (c :: front) back (by simp [tails]) startsBack
          simp [cutRest]

/-- Before its first occurrence there is none. -/
theorem not_infix_of_first (word_ne : word ≠ [])
    (first : ∀ front back, before ++ rest = front ++ back → word <+: back →
      before.length ≤ front.length) : ¬ word <:+: before := by
  rintro ⟨front, back, rfl⟩
  have bound := first front (word ++ back ++ rest) (by simp) (by simp)
  have longer := List.length_pos_iff.mpr word_ne
  simp only [List.length_append] at bound
  omega

/-! ### Replacing a word -/

/-- The output so far only stands in front of the replaced text. -/
theorem replaceFrom_eq (done : List Char) (skip : Nat) (text : List Char) :
    replaceFrom word new done skip text =
      done.reverse ++ replaceAll word new (text.drop skip) := by
  induction text generalizing done skip with
  | nil => cases skip <;> simp [replaceFrom, replaceAll]
  | cons c rest ih =>
    cases skip with
    | succ skip => simpa [replaceFrom] using ih done skip
    | zero =>
      simp only [replaceFrom, List.drop_zero, replaceAll]
      split
      · rw [ih, ih (new.reverse ++ [])]
        simp
      · rw [ih, ih [c]]
        simp

@[simp] theorem replaceAll_nil : replaceAll word new [] = [] := rfl

/-- Where the word begins it is passed as a whole, and the replacement takes its place. -/
@[simp] theorem replaceAll_append_word (word_ne : word ≠ []) :
    replaceAll word new (word ++ rest) = new ++ replaceAll word new rest := by
  obtain ⟨c, tail, rfl⟩ := List.exists_cons_of_ne_nil word_ne
  rw [replaceAll, List.cons_append, replaceFrom, if_pos (by simp), replaceFrom_eq]
  simp

/-- Where the word does not begin one character is kept. -/
theorem replaceAll_cons (misses : ¬ word <+: c :: rest) :
    replaceAll word new (c :: rest) = c :: replaceAll word new rest := by
  rw [replaceAll, replaceFrom, if_neg (by simpa using misses), replaceFrom_eq]
  simp

/-- The induction that follows a replacement: a text is empty, or the word begins it, or its
first character is kept. -/
theorem replaceAll_induction {motive : List Char → Prop} (word_ne : word ≠ [])
    (nil : motive [])
    (append_word : ∀ rest, motive rest → motive (word ++ rest))
    (cons : ∀ c rest, ¬ word <+: c :: rest → motive rest → motive (c :: rest))
    (text : List Char) : motive text := by
  induction length : text.length using Nat.strong_induction_on generalizing text with
  | _ size ih =>
    cases text with
    | nil => exact nil
    | cons c rest =>
      by_cases starts : word <+: c :: rest
      · obtain ⟨tail, whole⟩ := starts
        rw [← whole]
        have longer : 0 < word.length := List.length_pos_iff.mpr word_ne
        have shorter : tail.length < size := by
          rw [← length, ← whole, List.length_append]
          omega
        exact append_word tail (ih _ shorter tail rfl)
      · exact cons c rest starts (ih rest.length (by simp [← length]) rest rfl)

/-- A replacement leaves everything before the first occurrence alone. -/
theorem replaceAll_first (word_ne : word ≠ [])
    (first : ∀ front back, before ++ word ++ rest = front ++ back → word <+: back →
      before.length ≤ front.length) :
    replaceAll word new (before ++ word ++ rest) = before ++ new ++ replaceAll word new rest := by
  induction before with
  | nil => simp [word_ne]
  | cons c before ih =>
    have misses : ¬ word <+: c :: (before ++ word ++ rest) := fun starts => by
      simpa using first [] _ rfl starts
    simp only [List.cons_append]
    rw [replaceAll_cons misses, ih]
    intro front back whole starts
    simpa using first (c :: front) back (by simp [← whole]) starts

/-- A text in which the word does not occur is not changed. -/
theorem replaceAll_of_not_infix (absent : ¬ word <:+: text) : replaceAll word new text = text := by
  induction text with
  | nil => rfl
  | cons c rest ih =>
    rw [List.infix_cons_iff, not_or] at absent
    rw [replaceAll_cons absent.1, ih absent.2]

/-! ### Separators

A character that the word does not hold keeps what lies before it apart from what follows it. -/

theorem prefix_append_separator_iff {front : List Char} (fresh : c ∉ word) :
    word <+: front ++ c :: rest ↔ word <+: front := by
  refine ⟨fun starts => ?_, fun starts => starts.trans (List.prefix_append _ _)⟩
  rcases Nat.lt_or_ge front.length word.length with longer | shorter
  · have beyond : front ++ [c] <+: word := by
      have within : front ++ [c] <+: front ++ c :: rest := ⟨rest, by simp⟩
      refine List.prefix_of_prefix_length_le within starts ?_
      rw [List.length_append]
      exact longer
    exact absurd (beyond.subset (by simp)) fresh
  · exact List.prefix_of_prefix_length_le starts (List.prefix_append _ _) shorter

theorem infix_append_separator_iff {front : List Char} (fresh : c ∉ word) :
    word <:+: front ++ c :: rest ↔ word <:+: front ∨ word <:+: rest := by
  induction front with
  | nil =>
    have none : word <+: [] ++ c :: rest ↔ word <+: [] := prefix_append_separator_iff fresh
    rw [List.nil_append, List.prefix_nil] at none
    rw [List.nil_append, List.infix_cons_iff, none, List.infix_nil]
  | cons d front ih =>
    rw [List.cons_append, List.infix_cons_iff, ih, List.infix_cons_iff, or_assoc,
      ← List.cons_append, prefix_append_separator_iff fresh]

/-- A word lies within one of the pieces between separators. -/
theorem infix_intercalate_iff (word_ne : word ≠ []) (fresh : c ∉ word) {pieces : List (List Char)} :
    word <:+: [c].intercalate pieces ↔ ∃ piece ∈ pieces, word <:+: piece := by
  induction pieces with
  | nil => simpa using word_ne
  | cons piece later ih =>
    cases later with
    | nil => simp
    | cons next later =>
      rw [List.intercalate_cons_cons, List.append_assoc, List.singleton_append,
        infix_append_separator_iff fresh, ih, ← List.exists_mem_cons_iff]

/-- A separator divides a replacement into two. -/
theorem replaceAll_append_separator (word_ne : word ≠ []) (fresh : c ∉ word)
    (front : List Char) :
    replaceAll word new (front ++ c :: rest) =
      replaceAll word new front ++ c :: replaceAll word new rest := by
  induction front using replaceAll_induction word_ne with
  | nil =>
    have none : word <+: [] ++ c :: rest ↔ word <+: [] := prefix_append_separator_iff fresh
    have misses : ¬ word <+: c :: rest := fun starts =>
      word_ne (List.prefix_nil.mp (none.mp starts))
    rw [List.nil_append, replaceAll_cons misses]
    rfl
  | append_word front ih =>
    rw [List.append_assoc, replaceAll_append_word word_ne, ih, replaceAll_append_word word_ne,
      List.append_assoc]
  | cons d front misses ih =>
    have missesAll : ¬ word <+: d :: (front ++ c :: rest) := fun starts =>
      misses ((prefix_append_separator_iff fresh).mp (List.cons_append ▸ starts))
    rw [List.cons_append, replaceAll_cons missesAll, ih, replaceAll_cons misses]
    rfl

/-- Separators divide a replacement into those of the pieces between them. -/
theorem replaceAll_intercalate (word_ne : word ≠ []) (fresh : c ∉ word)
    (pieces : List (List Char)) : replaceAll word new ([c].intercalate pieces) =
      [c].intercalate (pieces.map (replaceAll word new)) := by
  induction pieces with
  | nil => rfl
  | cons piece later ih =>
    cases later with
    | nil => simp
    | cons next later =>
      rw [List.map_cons, List.map_cons, List.intercalate_cons_cons, List.intercalate_cons_cons,
        List.append_assoc, List.singleton_append, replaceAll_append_separator word_ne fresh, ih,
        List.append_assoc, List.singleton_append, List.map_cons]

/-! ### What a replaced text begins with -/

/-- What a replaced text begins with, the text began with already, unless an occurrence lies so
early that its replacement takes part. -/
theorem prefix_replaceAll (word_ne : word ≠ []) {start : List Char}
    (starts : start <+: replaceAll word new text) :
    start <+: text ∨ ∃ front back, text = front ++ word ++ back ∧
      replaceAll word new text = front ++ new ++ replaceAll word new back ∧
      front <+: start ∧ front.length < start.length := by
  induction text using replaceAll_induction word_ne generalizing start with
  | nil => exact .inl starts
  | append_word rest ih =>
    rcases start with - | ⟨c, start⟩
    · exact .inl List.nil_prefix
    · exact .inr ⟨[], rest, by simp, by simp [word_ne], List.nil_prefix, by simp⟩
  | cons c rest misses ih =>
    rw [replaceAll_cons misses] at starts ⊢
    rcases start with - | ⟨d, start⟩
    · exact .inl List.nil_prefix
    · obtain ⟨rfl, startsRest⟩ := List.cons_prefix_cons.mp starts
      rcases ih startsRest with short | ⟨front, back, whole, replaced, within, shorter⟩
      · exact .inl (List.cons_prefix_cons.mpr ⟨rfl, short⟩)
      · refine .inr ⟨d :: front, back, by simp [whole], by simp [replaced], ?_,
          by simpa using shorter⟩
        exact List.cons_prefix_cons.mpr ⟨rfl, within⟩

/-! ### Counting a word -/

/-- The number of places of a text at which a word begins.  Places may overlap. -/
def occurrences (word : List Char) : List Char → Nat
  | [] => 0
  | c :: rest => (if word <+: c :: rest then 1 else 0) + occurrences word rest

theorem occurrences_cons_pos (starts : word <+: c :: rest) :
    occurrences word (c :: rest) = occurrences word rest + 1 := by
  rw [occurrences, if_pos starts, Nat.add_comm]

theorem occurrences_cons_neg (misses : ¬ word <+: c :: rest) :
    occurrences word (c :: rest) = occurrences word rest := by
  rw [occurrences, if_neg misses, Nat.zero_add]

theorem occurrences_le_cons : occurrences word rest ≤ occurrences word (c :: rest) := by
  rw [occurrences]
  exact Nat.le_add_left _ _

/-- What occurs nowhere is counted zero times. -/
theorem occurrences_eq_zero_iff (word_ne : word ≠ []) :
    occurrences word text = 0 ↔ ¬ word <:+: text := by
  induction text with
  | nil => simp [occurrences, word_ne]
  | cons c rest ih =>
    rw [List.infix_cons_iff, not_or, ← ih]
    by_cases starts : word <+: c :: rest
    · simp [occurrences_cons_pos starts, starts]
    · simp [occurrences_cons_neg starts, starts]

/-- Text in front never hides an occurrence. -/
theorem occurrences_le_append (front : List Char) :
    occurrences word text ≤ occurrences word (front ++ text) := by
  induction front with
  | nil => exact Nat.le_refl _
  | cons c front ih => exact ih.trans occurrences_le_cons

/-- Text in front at no place of which the word begins does not count. -/
theorem occurrences_append_neg {front : List Char}
    (misses : ∀ inner tail, front = inner ++ tail → tail ≠ [] → ¬ word <+: tail ++ text) :
    occurrences word (front ++ text) = occurrences word text := by
  induction front with
  | nil => rfl
  | cons c front ih =>
    rw [List.cons_append, occurrences_cons_neg, ih]
    · exact fun inner tail whole => misses (c :: inner) tail (by simp [whole])
    · exact misses [] (c :: front) rfl (by simp)

/-! ### Pieces -/

/-- Splitting with the open piece and the finished pieces at hand. -/
private theorem splitFrom_eq (mark : Char) (text : List Char) :
    ∀ piece done, splitFrom mark piece done text
      = done.reverse ++ (text.splitOn mark).modifyHead (piece.reverse ++ ·) := by
  induction text with
  | nil => simp [splitFrom]
  | cons c rest ih =>
    intro piece done
    rw [splitFrom, List.splitOn_cons_eq_if_modifyHead]
    by_cases here : c = mark
    · subst here
      simp only [if_pos, ih, BEq.rfl]
      cases rest.splitOn c <;> simp
    · simp [here, ih, Function.comp_def]

/-- Splitting is what the library calls so. -/
theorem splitAtEach_eq_splitOn (mark : Char) (text : List Char) :
    splitAtEach mark text = text.splitOn mark := by
  rw [splitAtEach, splitFrom_eq]
  cases text.splitOn mark <;> rfl

/-- No piece holds the mark. -/
theorem mark_notMem_of_mem_splitOn {mark : Char} {piece : List Char} (text : List Char)
    (mem : piece ∈ text.splitOn mark) : mark ∉ piece := by
  induction text generalizing piece with
  | nil =>
    rw [List.splitOn_nil, List.mem_singleton] at mem
    simp [mem]
  | cons c rest ih =>
    rw [List.splitOn_cons_eq_if_modifyHead] at mem
    split at mem
    · rcases List.mem_cons.mp mem with rfl | mem
      · simp
      · exact ih mem
    · rename_i other
      rw [beq_iff_eq] at other
      cases pieces : rest.splitOn mark with
      | nil => exact absurd pieces (List.splitOn_ne_nil _ _)
      | cons first later =>
        rw [pieces] at mem ih
        rcases List.mem_cons.mp mem with rfl | mem
        · have fresh := ih List.mem_cons_self
          simp only [List.mem_cons, not_or]
          exact ⟨fun same => other same.symm, fresh⟩
        · exact ih (List.mem_cons_of_mem _ mem)

end ClassNaming.Text
