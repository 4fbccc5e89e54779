import ClassNaming.Proofs.Detail.Fragments
import ClassNaming.Proofs.Detail.Settling

/-!
# Details of which no name is known

A renamer that knows none of the names of a detail leaves it as it is, however the names are found.

For *spans* the names are parts of the detail, and a fragment with a missed name is its old self.

For *passes* they are parts of a text that has been changed already: every missed name was defused,
so markers stand in later names.  What holds of all these texts is that they are the detail with
markers put in.  A part of such a text is a part of the detail with markers put in, so it is enough
that names with markers are not known either; that is so if the table has no such name.  Each pass
defuses at least its own sentinel, so there are no more passes than sentinels; and in the end all
markers go, also those that the detail had from the start.

## Main Definitions

* `Renamer.Misses` - no name that is a part of a detail is known
* `Renamer.MissesMarked` - nor is one that such a part becomes with markers in it
* `Renamer.HasUnmarkedRows` - no name of the table holds a marker

## Main Results

* `Renamer.renameSpans_of_misses`, `Renamer.renamePasses_of_misses` - what the strategies leave
* `Renamer.rename_of_misses` - what a detail without known names is renamed to
-/

namespace ClassNaming

namespace Renamer

variable {renamer : Renamer} {detail text : List Char}

/-- No part of the detail that starts with the sentinel and holds no terminator has a usable new
name. -/
def Misses (renamer : Renamer) (detail : List Char) : Prop :=
  ∀ name, name <:+: detail → renamer.sentinel <+: name → Detail.terminator ∉ name →
    renamer.lookup? name = none

/-- Nor has what such a part becomes when markers are put into it. -/
def MissesMarked (renamer : Renamer) (detail : List Char) : Prop :=
  ∀ part name, part <:+: detail → Detail.Marked part name → marker ∈ name →
    renamer.sentinel <+: name → Detail.terminator ∉ name → renamer.lookup? name = none

/-- A detail without a sentinel has no names at all. -/
theorem misses_of_absent (absent : ¬ renamer.sentinel <:+: detail) :
    renamer.Misses detail ∧ renamer.MissesMarked detail := by
  constructor
  · intro name inside starts _
    exact absurd (starts.isInfix.trans inside) absent
  · intro part name inside put _ starts _
    have begins := put.begins renamer.mode.marker_notMem_sentinel starts
    exact absurd (begins.isInfix.trans inside) absent

/-- A renamer with a table of which no row bears a name with a marker. -/
def HasUnmarkedRows (renamer : Renamer) : Prop :=
  ∃ namespaces rows, renamer.resolver.table = .ofRows namespaces rows ∧
    renamer.resolver.source < namespaces.length ∧
    ∀ row ∈ rows, ∀ name ∈ row, marker ∉ name.toList

/-- If no row of the table bears a name with a marker, then such names are missed. -/
theorem HasUnmarkedRows.missesMarked (has : renamer.HasUnmarkedRows) (detail : List Char) :
    renamer.MissesMarked detail := by
  obtain ⟨namespaces, rows, table, known, unmarked⟩ := has
  intro part name _ _ marked _ _
  suffices unknown : MappingTable.firstRow? (rows.map (MappingTable.fitRow namespaces.length))
      renamer.resolver.source (String.ofList name) = none by
    simp [lookup?, Resolver.resolve?, table, MappingTable.lookup?_ofRows known, unknown]
  unfold MappingTable.firstRow?
  split
  · rfl
  refine List.find?_eq_none.mpr fun fitted member bears => ?_
  obtain ⟨row, listed, rfl⟩ := List.mem_map.mp member
  have cell : (MappingTable.fitRow namespaces.length row)[renamer.resolver.source]? =
      some (String.ofList name) := by simpa using bears
  rcases List.mem_append.mp (List.mem_of_getElem? cell) with own | filled
  · exact unmarked row listed _ (List.mem_of_mem_take own) (by simpa using marked)
  · have empty : String.ofList name = "" := List.eq_of_mem_replicate filled
    have none : name = [] := by simpa using congrArg String.toList empty
    simp [none] at marked

/-! ### Spans -/

/-- **Spans leave a detail without known names as it is.** -/
theorem renameSpans_of_misses (misses : renamer.Misses detail) :
    renamer.renameSpans detail = detail := by
  rw [renameSpans_pieces]
  refine Detail.intercalate_map_eq_self fun piece mem => ?_
  cases cut : Text.cut? renamer.sentinel piece with
  | none => exact spanned_of_absent (Text.cut?_eq_none_iff.mp cut)
  | some parts =>
    obtain ⟨before, found⟩ := parts
    obtain ⟨rfl, starts, -⟩ := Text.cut?_eq_some_iff.mp cut
    have missed := misses found
      ((List.suffix_append before found).isInfix.trans (Detail.infix_of_mem_splitOn mem)) starts
      fun ends => Text.mark_notMem_of_mem_splitOn detail mem (List.mem_append_right _ ends)
    rw [spanned_of_cut cut, newName_of_missed missed]

/-! ### Passes -/

/-- A name in the detail with markers put in is missed. -/
theorem lookup?_eq_none {name : List Char} (misses : renamer.Misses detail)
    (unmarked : renamer.MissesMarked detail) (put : Detail.Marked detail text)
    (inside : name <:+: text) (starts : renamer.sentinel <+: name)
    (closed : Detail.terminator ∉ name) : renamer.lookup? name = none := by
  obtain ⟨part, within, marked⟩ := put.exists_infix inside
  by_cases holds : marker ∈ name
  · exact unmarked part name within marked holds starts closed
  · obtain rfl := marked.eq_of_notMem holds
    exact misses part within starts closed

/-- One pass over the detail with markers put in: it puts in more, and a sentinel is lost. -/
theorem pass?_of_misses (misses : renamer.Misses detail) (unmarked : renamer.MissesMarked detail)
    {next : List Char} (put : Detail.Marked detail text) (pass : renamer.pass? text = some next) :
    Detail.Marked detail next ∧
      Text.occurrences renamer.sentinel next < Text.occurrences renamer.sentinel text := by
  obtain ⟨before, name, after, reference⟩ := exists_reference_of_pass? pass
  have name_ne := reference.name_ne_nil renamer.mode.sentinel_ne_nil
  have free := renamer.mode.marker_notMem_sentinel
  have missed : renamer.replacement name = defuse name := by
    rw [replacement, lookup?_eq_none misses unmarked put ⟨before, after, reference.whole.symm⟩
      reference.starts reference.closed, Option.getD_none]
  have marks := Detail.Marked.replaceAll name_ne (Detail.Marked.defuse name)
  rw [pass?_eq_some reference, missed] at pass
  obtain rfl := Option.some.inj pass
  constructor
  · rw [← reference.replaceAll_eq renamer.mode.sentinel_ne_nil]
    exact put.trans (marks text)
  · have behind := (Detail.Marked.defuse name).append (marks after)
    have less := Detail.occurrences_defuse_lt renamer.mode.net_prefix_sentinel free
      reference.starts (marks after)
    rw [reference.whole, List.append_assoc, List.append_assoc]
    exact behind.occurrences_append_lt free less before

/-- The passes come to an end after at most one for each sentinel, and only put markers in. -/
theorem settle?_of_misses (misses : renamer.Misses detail) (unmarked : renamer.MissesMarked detail)
    {limit : Nat} (put : Detail.Marked detail text)
    (enough : Text.occurrences renamer.sentinel text < limit) :
    ∃ settled, renamer.settle? limit text = some settled ∧ Detail.Marked detail settled := by
  induction limit generalizing text with
  | zero => exact absurd enough (Nat.not_lt_zero _)
  | succ limit ih =>
    rw [settle?]
    cases pass : renamer.pass? text with
    | none => exact ⟨text, rfl, put⟩
    | some next =>
      obtain ⟨put', less⟩ := pass?_of_misses misses unmarked put pass
      exact ih put' (by omega)

/-- **Passes leave a detail without known names as it is, except for its markers**, and come to an
end. -/
theorem renamePasses_of_misses (misses : renamer.Misses detail)
    (unmarked : renamer.MissesMarked detail) :
    renamer.renamePasses detail = some (detail.filter (· ≠ marker)) := by
  obtain ⟨settled, settles, put⟩ :=
    settle?_of_misses misses unmarked (Detail.Marked.refl detail) (Nat.lt_succ_self _)
  rw [renamePasses_of_settle? settles, put.filter_eq]

/-- **A detail without known names is renamed to itself**, except that passes remove its markers. -/
theorem rename_of_misses {detail : String} (misses : renamer.Misses detail.toList)
    (unmarked : renamer.strategy = .passes → renamer.MissesMarked detail.toList) :
    ∃ new, renamer.rename detail = some new ∧
      (new = detail ↔ (renamer.strategy = .passes → marker ∉ detail.toList)) := by
  cases strategy : renamer.strategy with
  | spans =>
    refine ⟨detail, ?_, by simp⟩
    rw [rename_of_spans strategy, renameSpans_of_misses misses, String.ofList_toList]
  | passes =>
    refine ⟨String.ofList (detail.toList.filter (· ≠ marker)), ?_, ?_⟩
    · rw [rename_of_passes strategy, renamePasses_of_misses misses (unmarked strategy),
        Option.map_some]
    · rw [forall_prop_of_true rfl, ← filter_marker_eq_self_iff]
      constructor
      · exact fun same => by simpa using congrArg String.toList same
      · exact fun same => by rw [same, String.ofList_toList]

end Renamer

end ClassNaming
