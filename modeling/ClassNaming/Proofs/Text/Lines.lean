import Mathlib.Data.List.TakeWhile
import ClassNaming.Proofs.Text.Occurrence
import ClassNaming.Text.Lines

/-!
# Laws of lines and columns

Columns are joined by tabs and lines ended by line feeds; splitting undoes both, as long as no
column holds a tab and no line an end of line.  A carriage return counts as one, since the reader
drops it at the end of a line.

## Main Definitions

* `ofColumns` - the line with the given columns
* `ofLines` - the text with the given lines
* `Flat` - a text that stays within one column of one line

## Main Results

* `columns_ofColumns`, `lines_ofLines` - splitting undoes joining
* `exists_columns` - the first column of any line
-/

namespace ClassNaming.Text

/-- The line with the given columns. -/
def ofColumns (cols : List String) : String :=
  String.ofList (['\t'].intercalate (cols.map String.toList))

/-- The text with the given lines, each ended by a line feed. -/
def ofLines (lines : List String) : String :=
  String.ofList (lines.flatMap fun line => line.toList ++ ['\n'])

/-- A text that stays within one column of one line: it holds no tab and no part of an end of
line. -/
def Flat (text : List Char) : Prop := ∀ c ∈ text, c ∉ ['\t', '\n', '\r']

instance (text : List Char) : Decidable (Flat text) := List.decidableBAll _ text

variable {line : String} {cols lines : List String} {c : Char}

theorem map_ofList_toList (texts : List String) :
    (texts.map String.toList).map String.ofList = texts := by
  simp [Function.comp_def]

/-- Splitting a line into its columns undoes joining them. -/
theorem columns_ofColumns (cols_ne : cols ≠ []) (flat : ∀ col ∈ cols, Flat col.toList) :
    columns (ofColumns cols) = cols := by
  have apart : ∀ piece ∈ cols.map String.toList, '\t' ∉ piece := by
    intro piece mem tab
    obtain ⟨col, member, rfl⟩ := List.mem_map.mp mem
    exact flat col member '\t' tab (by decide)
  rw [columns, ofColumns, String.toList_ofList, splitAtEach_eq_splitOn,
    List.splitOn_intercalate '\t' apart (by simpa using cols_ne), map_ofList_toList]

/-- The first column of a line is what stands before its first tab. -/
theorem exists_columns (line : String) :
    ∃ cols, columns line = String.ofList (line.toList.takeWhile (· != '\t')) :: cols := by
  have pieces : ∀ text : List Char,
      ∃ later, text.splitOn '\t' = text.takeWhile (· != '\t') :: later := by
    intro text
    induction text with
    | nil => exact ⟨[], rfl⟩
    | cons c rest ih =>
      obtain ⟨later, whole⟩ := ih
      rw [List.splitOn_cons_eq_if_modifyHead, whole]
      by_cases tab : c = '\t'
      · exact ⟨rest.takeWhile (· != '\t') :: later, by simp [tab]⟩
      · exact ⟨later, by simp [tab]⟩
  obtain ⟨later, whole⟩ := pieces line.toList
  exact ⟨later.map String.ofList, by rw [columns, splitAtEach_eq_splitOn, whole, List.map_cons]⟩

/-- A line begins with its first column. -/
theorem exists_ofColumns_cons (first : String) (later : List String) :
    ∃ rest, (ofColumns (first :: later)).toList = first.toList ++ rest := by
  rw [ofColumns, String.toList_ofList, List.map_cons]
  cases later with
  | nil => exact ⟨[], by simp⟩
  | cons next later =>
    exact ⟨_, by rw [List.map_cons, List.intercalate_cons_cons, List.append_assoc]⟩

/-- A line holds what its columns hold, and tabs. -/
theorem notMem_ofColumns (other : c ≠ '\t') (free : ∀ col ∈ cols, c ∉ col.toList) :
    c ∉ (ofColumns cols).toList := by
  rw [ofColumns, String.toList_ofList]
  induction cols with
  | nil => simp
  | cons col later ih =>
    have here := free col List.mem_cons_self
    have behind := ih fun other mem => free other (List.mem_cons_of_mem _ mem)
    cases later with
    | nil => simpa using here
    | cons next later =>
      rw [List.map_cons, List.map_cons, List.intercalate_cons_cons, ← List.map_cons]
      simp only [List.mem_append, List.mem_singleton, not_or]
      exact ⟨⟨here, other⟩, behind⟩

theorem withoutReturns_prefix (line : String) : (withoutReturns line).toList <+: line.toList := by
  rw [withoutReturns, String.toList_ofList, ← List.reverse_suffix, List.reverse_reverse]
  exact List.dropWhile_suffix _

/-- A word without a tab lies within one of the columns of a line. -/
theorem infix_line_iff {word : List Char} (word_ne : word ≠ []) (flat : '\t' ∉ word) :
    word <:+: line.toList ↔ ∃ column ∈ columns line, word <:+: column.toList := by
  have joined : ['\t'].intercalate (line.toList.splitOn '\t') = line.toList :=
    List.intercalate_splitOn '\t'
  rw [← joined, infix_intercalate_iff word_ne flat, columns, splitAtEach_eq_splitOn]
  simp

theorem endedLine_of_notMem {line : List Char} (free : '\r' ∉ line) : endedLine line = line := by
  unfold endedLine
  split
  case h_1 rest last => exact absurd (List.mem_reverse.mp (last ▸ List.mem_cons_self)) free
  case h_2 => rfl

/-- A line without a carriage return keeps all its characters. -/
theorem withoutReturns_of_notMem (free : '\r' ∉ line.toList) : withoutReturns line = line := by
  have kept : line.toList.reverse.dropWhile (· == '\r') = line.toList.reverse := by
    refine List.dropWhile_eq_self_iff.mpr fun inside => ?_
    rw [beq_iff_eq]
    exact fun same => free (List.mem_reverse.mp (same ▸ List.getElem_mem inside))
  rw [withoutReturns, kept, List.reverse_reverse, String.ofList_toList]

theorem splitOn_flatMap_ended {lines : List (List Char)} (free : ∀ line ∈ lines, c ∉ line) :
    (lines.flatMap (· ++ [c])).splitOn c = lines ++ [[]] := by
  induction lines with
  | nil => rfl
  | cons line later ih =>
    have here := free line List.mem_cons_self
    rw [List.flatMap_cons, List.append_assoc, List.singleton_append,
      List.splitOn_append_cons_self_of_not_mem here,
      ih fun other mem => free other (List.mem_cons_of_mem _ mem), List.cons_append]

/-- Pieces of which the last is empty were all ended. -/
theorem linesOfPieces_ended {lines : List (List Char)} (free : ∀ line ∈ lines, '\r' ∉ line) :
    linesOfPieces (lines ++ [[]]) = lines := by
  induction lines with
  | nil => rfl
  | cons line later ih =>
    have behind := ih fun other mem => free other (List.mem_cons_of_mem _ mem)
    obtain ⟨next, more, same⟩ : ∃ next more, later ++ [[]] = next :: more :=
      List.exists_cons_of_ne_nil (by simp)
    rw [same] at behind
    rw [List.cons_append, same, linesOfPieces, endedLine_of_notMem (free line List.mem_cons_self),
      behind]
    exact List.cons_ne_nil _ _

/-- Splitting a text into its lines undoes joining them. -/
theorem lines_ofLines (free : ∀ line ∈ lines, '\n' ∉ line.toList ∧ '\r' ∉ line.toList) :
    Text.lines (ofLines lines) = lines := by
  have ended : ∀ line ∈ lines.map String.toList, '\n' ∉ line ∧ '\r' ∉ line := by
    intro line mem
    obtain ⟨whole, member, rfl⟩ := List.mem_map.mp mem
    exact free whole member
  have joined : lines.flatMap (fun line => line.toList ++ ['\n']) =
      (lines.map String.toList).flatMap (· ++ ['\n']) := by
    rw [List.flatMap_map]
  rw [Text.lines, ofLines, String.toList_ofList, splitAtEach_eq_splitOn, joined,
    splitOn_flatMap_ended fun line mem => (ended line mem).1,
    linesOfPieces_ended fun line mem => (ended line mem).2, map_ofList_toList]

end ClassNaming.Text
