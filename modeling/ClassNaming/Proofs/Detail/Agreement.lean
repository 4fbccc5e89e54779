import ClassNaming.Proofs.Detail.Pieces

/-!
# Where passes and spans agree

Spans rename a reference where it stands.  A pass renames its name wherever the text has it, so the
two strategies part where one name also occurs as a part of another one, or behind a new name.
They agree where that cannot happen:

* *A name stands alone.*  Wherever the detail has the name of a reference, a reference of that name
  starts and ends.
* *A new name completes no sentinel.*  It does not begin with an ending of the sentinel, of which
  the rest could stand in front of it.

A new name may hold terminators then, and so cut a piece in two, and a reference may hold further
sentinels: the pass for a name takes them all away at once.

## Main Results

* `Renamer.orderly_of_alone` - the passes take names that stand alone one after the other
* `Renamer.renamePasses_eq_renameSpans` - both strategies make the same of a detail
-/

namespace ClassNaming.Detail

variable {sentinel piece before found name new front back detail : List Char}

/-- A beginning of a detail tells how many pieces it completes. -/
theorem pieces_of_beginning {done done' : List (List Char)} {front' : List Char}
    (closed : ∀ piece ∈ done ++ [front], terminator ∉ piece)
    (closed' : ∀ piece ∈ done' ++ [front'], terminator ∉ piece)
    (same : done.flatMap (· ++ [terminator]) ++ front =
      done'.flatMap (· ++ [terminator]) ++ front') : done = done' ∧ front = front' := by
  have joined : ∀ (done : List (List Char)) front, [terminator].intercalate (done ++ [front]) =
      done.flatMap (· ++ [terminator]) ++ front := fun done front => by
    rw [intercalate_append_cons, List.flatMap_nil, List.append_nil]
  rw [← joined, ← joined] at same
  have split := congrArg (List.splitOn terminator) same
  rw [List.splitOn_intercalate _ closed (by simp),
    List.splitOn_intercalate _ closed' (by simp)] at split
  obtain ⟨rfl, last⟩ := List.append_inj' split rfl
  exact ⟨rfl, List.singleton_inj.mp last⟩

/-- The bytes of a part of a detail. -/
def spanAt (front name : List Char) : Reference :=
  ⟨byteLength front, byteLength (front ++ name), name⟩

/-- Wherever the detail has the name of a reference, a reference of that name starts and ends. -/
def NamesAlone (sentinel detail : List Char) : Prop :=
  ∀ reference ∈ references sentinel detail, ∀ front back,
    detail = front ++ reference.name ++ back →
    spanAt front reference.name ∈ references sentinel detail

/-- A part of a piece whose bytes are those of a reference is the reference of the piece. -/
theorem cut?_of_mem_references (fresh : terminator ∉ sentinel) (sentinel_ne : sentinel ≠ [])
    {done ahead : List (List Char)} (split : detail.splitOn terminator = done ++ piece :: ahead)
    (whole : piece = front ++ name ++ back)
    (mem : spanAt (done.flatMap (· ++ [terminator]) ++ front) name ∈ references sentinel detail) :
    Text.cut? sentinel piece = some (front, name) := by
  obtain ⟨done', piece', ahead', before, split', cut, start⟩ :=
    exists_piece_of_mem_references fresh sentinel_ne mem
  have joined : [terminator].intercalate (detail.splitOn terminator) = detail :=
    List.intercalate_splitOn terminator
  have closed : ∀ other ∈ detail.splitOn terminator, terminator ∉ other := fun _ =>
    Text.mark_notMem_of_mem_splitOn detail
  -- The beginning of a piece with the pieces in front is a beginning of the detail.
  have begins : ∀ {done piece ahead front back},
      detail.splitOn terminator = done ++ piece :: ahead → piece = front ++ back →
      done.flatMap (· ++ [terminator]) ++ front <+: detail ∧
        ∀ other ∈ done ++ [front], terminator ∉ other := by
    rintro done piece ahead front back split rfl
    rw [split] at joined closed
    constructor
    · rw [← joined, intercalate_append_cons]
      exact ⟨back ++ ahead.flatMap (terminator :: ·), by simp⟩
    · intro other mem
      rcases List.mem_append.mp mem with earlier | last
      · exact closed other (List.mem_append_left _ earlier)
      · rw [List.mem_singleton.mp last]
        exact fun inside => closed (front ++ back) (by simp) (List.mem_append_left _ inside)
  obtain ⟨lies, free⟩ := begins split (whole.trans (List.append_assoc _ _ _))
  obtain ⟨lies', free'⟩ := begins split' (Text.cut?_eq_some_iff.mp cut).1
  obtain ⟨rfl, rfl⟩ := pieces_of_beginning free free' (eq_of_byteLength_eq lies lies' start)
  obtain ⟨rfl, -⟩ := List.cons.inj (List.append_cancel_left (split.symm.trans split'))
  exact cut

end ClassNaming.Detail

namespace ClassNaming

namespace Renamer

variable {renamer : Renamer} {detail : List Char} {piece before front back name : List Char}

/-- Nothing that is put in the place of a name completes a sentinel. -/
theorem unstarted_replacement (starts : renamer.sentinel <+: name)
    (unstarted : ∀ new, renamer.lookup? name = some new →
      Detail.Unstarted renamer.sentinel new) :
    Detail.Unstarted renamer.sentinel (renamer.replacement name) := by
  cases usable : renamer.lookup? name with
  | some new => rw [replacement, usable, Option.getD_some]; exact unstarted new usable
  | none =>
    rw [replacement, usable, Option.getD_none]
    exact unstarted_defuse starts

/-! ### Names that stand alone -/

section Alone

variable (alone : Detail.NamesAlone renamer.sentinel detail)
include alone

/-- Where a piece has a name, the name is the reference of the piece. -/
theorem cut?_of_alone
    (named : name ∈ Detail.namesOf renamer.sentinel (detail.splitOn Detail.terminator))
    (mem : piece ∈ detail.splitOn Detail.terminator) (whole : piece = front ++ name ++ back) :
    Text.cut? renamer.sentinel piece = some (front, name) := by
  obtain ⟨reference, listed, rfl⟩ := exists_reference_of_mem_namesOf named
  obtain ⟨done, ahead, split⟩ := List.append_of_mem mem
  have joined : [Detail.terminator].intercalate (detail.splitOn Detail.terminator) = detail :=
    List.intercalate_splitOn Detail.terminator
  rw [split, Detail.intercalate_append_cons, whole] at joined
  refine Detail.cut?_of_mem_references renamer.mode.terminator_notMem_sentinel
    renamer.mode.sentinel_ne_nil split whole
    (alone reference listed _ (back ++ ahead.flatMap (Detail.terminator :: ·)) ?_)
  rw [← joined]
  simp

/-- A name that begins the reference of a piece is the reference. -/
theorem rest_eq_nil_of_alone {rest : List Char}
    (named : name ∈ Detail.namesOf renamer.sentinel (detail.splitOn Detail.terminator))
    (mem : piece ∈ detail.splitOn Detail.terminator)
    (cut : Text.cut? renamer.sentinel piece = some (before, name ++ rest)) : rest = [] := by
  have whole := (Text.cut?_eq_some_iff.mp cut).1
  have alone_cut := cut?_of_alone alone named mem (whole.trans (List.append_assoc _ _ _).symm)
  obtain ⟨-, same⟩ := Prod.mk.inj (Option.some.inj (cut.symm.trans alone_cut))
  exact List.append_right_eq_self.mp same

/-- **Names that stand alone** are taken by the passes one after the other. -/
theorem orderly_of_alone
    (unstarted : ∀ reference ∈ Detail.references renamer.sentinel detail, ∀ new,
      renamer.lookup? reference.name = some new → Detail.Unstarted renamer.sentinel new) :
    renamer.Orderly (detail.splitOn Detail.terminator) where
  lone name named _ mem _ _ whole := ⟨name, cut?_of_alone alone named mem whole⟩
  clean name named piece mem before rest cut := by
    have absent := Detail.absent_before renamer.mode.sentinel_ne_nil cut
    have starts := Detail.starts_of_mem_namesOf named
    rw [rest_eq_nil_of_alone alone named mem cut, List.append_nil]
    obtain ⟨reference, listed, rfl⟩ := exists_reference_of_mem_namesOf named
    exact (unstarted_replacement starts (unstarted reference listed)).not_infix_append absent
      (sentinel_not_infix_replacement reference.name)

/-- The first name that begins the reference of a piece is the reference. -/
theorem substitute_of_alone (mem : piece ∈ detail.splitOn Detail.terminator) :
    Detail.substitute renamer.sentinel renamer.newName
      (Detail.namesOf renamer.sentinel (detail.splitOn Detail.terminator)) piece =
      renamer.spanned piece := by
  cases cut : Text.cut? renamer.sentinel piece with
  | none =>
    have absent := Text.cut?_eq_none_iff.mp cut
    rw [Detail.substitute_of_absent absent, spanned_of_absent absent]
  | some parts =>
    obtain ⟨before, found⟩ := parts
    obtain ⟨name, first⟩ := Option.isSome_iff_exists.mp (Detail.find?_namesOf_isSome mem cut)
    obtain ⟨named, rest, rfl⟩ := Detail.split_of_find? first
    obtain rfl := rest_eq_nil_of_alone alone named mem cut
    rw [Detail.substitute_of_some cut first, spanned_of_cut cut, List.append_nil, List.append_nil]

end Alone

/-- **Passes and spans agree** where every name stands alone and no new name completes a sentinel.
So the passes come to an end there. -/
theorem renamePasses_eq_renameSpans (renamer : Renamer) (detail : String)
    (free : marker ∉ detail.toList) (alone : Detail.NamesAlone renamer.sentinel detail.toList)
    (unmarked : ∀ reference ∈ renamer.references detail, ∀ new,
      renamer.lookup? reference.name = some new → marker ∉ new)
    (unstarted : ∀ reference ∈ renamer.references detail, ∀ new,
      renamer.lookup? reference.name = some new → Detail.Unstarted renamer.sentinel new) :
    renamer.renamePasses detail.toList = some (renamer.renameSpans detail.toList) := by
  have unmarked_names : ∀ name ∈ Detail.namesOf renamer.sentinel
      (detail.toList.splitOn Detail.terminator), ∀ new, renamer.lookup? name = some new →
      marker ∉ new := by
    intro name named
    obtain ⟨reference, listed, rfl⟩ := exists_reference_of_mem_namesOf named
    exact unmarked reference listed
  rw [renamePasses_of_orderly (orderly_of_alone alone unstarted) free unmarked_names,
    renameSpans_pieces]
  exact congrArg (some <| [Detail.terminator].intercalate ·)
    (List.map_congr_left fun piece mem => substitute_of_alone alone mem)

/-- A renamer with a new name that holds a terminator, and ends in the beginning of a sentinel. -/
def breaking : Renamer :=
  { resolver :=
      { table := .ofRows ["intermediary", "named"]
          [["net/minecraft/class_1", "named/One;net/minecraft/class"]]
        space := "intermediary", source := 0, target := 1 }
    mode := .intermediary
    strategy := .passes }

/-- Three references.  The one in the middle holds a further sentinel, and is not known. -/
def broken : String :=
  "net/minecraft/class_1;net/minecraft/class_2net/minecraft/class_3;(net/minecraft/class_1"

theorem lookup?_breaking {new : List Char} (usable : breaking.lookup? name = some new) :
    new = "named/One;net/minecraft/class".toList := by
  obtain ⟨row, listed, cell⟩ := exists_row_of_lookup? rfl (by decide) usable
  obtain rfl : row = ["net/minecraft/class_1", "named/One;net/minecraft/class"] := by
    simpa [MappingTable.fitRow] using listed
  simpa using (congrArg String.toList (Option.some.inj cell)).symm

theorem namesAlone_broken : Detail.NamesAlone breaking.sentinel broken.toList := by
  have spans : ∀ reference ∈ Detail.references breaking.sentinel broken.toList,
      ∀ front ∈ broken.toList.inits, front ++ reference.name <+: broken.toList →
      Detail.spanAt front reference.name ∈ Detail.references breaking.sentinel broken.toList := by
    decide +kernel
  intro reference listed front back whole
  refine spans reference listed front ((List.mem_inits _ _).mpr ?_) ⟨back, whole.symm⟩
  exact ⟨reference.name ++ back, by rw [whole, List.append_assoc]⟩

theorem renamePasses_broken :
    breaking.renamePasses broken.toList = some (breaking.renameSpans broken.toList) ∧
    breaking.renameSpans broken.toList = ("named/One;net/minecraft/class;" ++
      "net/minecraft/class_2net/minecraft/class_3;(named/One;net/minecraft/class").toList := by
  constructor
  · refine (renamePasses_eq_renameSpans breaking broken (by decide) namesAlone_broken ?_ ?_)
    · intro _ _ new usable
      rw [lookup?_breaking usable]
      decide
    · intro _ _ new usable ending ends ending_ne _
      rw [lookup?_breaking usable]
      have endings : ∀ ending ∈ breaking.sentinel.tails, ending ≠ [] →
          ¬ ending <+: "named/One;net/minecraft/class".toList := by decide
      exact endings ending ((List.mem_tails _ _).mpr ends) ending_ne
  · have known : 0 < ["intermediary", "named"].length := by decide
    rw [renameSpans_pieces]
    unfold spanned newName lookup? Resolver.resolve? breaking
    simp only [MappingTable.lookup?_ofRows known]
    decide +kernel

end Renamer

end ClassNaming
