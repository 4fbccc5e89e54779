import ClassNaming.Proofs.Files.Path
import ClassNaming.Run.Sibling

/-!
# Laws of siblings

The snapshot of a target that ends with a name has a name that a path can spell, and its path has
the parts of the target before that name.  So it is with the staging file of an archive, whose name
is that of the archive with a suffix.

## Main Results

* `isName_snapshotName`, `snapshotName_ne` - the name of a snapshot
* `parts_snapshotPath`, `closing_snapshotPath` - the path of a snapshot
* `parts_stagingFile`, `closing_stagingFile` - the path of a staging file
-/

namespace ClassNaming

open ClassNaming.Path

variable {t : FileTree} {target : Path} {name : String} {parts : List PathPart}

/-- A name is divided into characters of its own. -/
theorem unseparated_divide (fresh : '/' ∉ name.toList) :
    '/' ∉ (divide name).1.toList ∧
      ∀ extension, (divide name).2 = some extension → '/' ∉ extension.toList := by
  have drop_fresh : ∀ count, '/' ∉ name.toList.reverse.drop count := fun count mem =>
    fresh (List.mem_reverse.mp (List.mem_of_mem_drop mem))
  have take_fresh : '/' ∉ name.toList.reverse.takeWhile (· ≠ '.') := fun mem =>
    fresh (List.mem_reverse.mp ((List.takeWhile_sublist _).mem mem))
  unfold divide
  dsimp only
  split
  · rename_i c stem split
    have stem_fresh : '/' ∉ stem := by
      intro mem
      refine drop_fresh (name.toList.reverse.takeWhile (· ≠ '.')).length ?_
      rw [split]
      exact List.mem_cons_of_mem _ mem
    split
    · exact ⟨fresh, by rintro _ ⟨⟩⟩
    · refine ⟨by simpa using stem_fresh, ?_⟩
      rintro _ ⟨⟩
      simpa using take_fresh
  · exact ⟨fresh, by rintro _ ⟨⟩⟩

/-- A name is as long as the characters that it is divided into, with the dot between them. -/
theorem length_divide (name : String) : (divide name).1.toList.length
    + ((divide name).2.elim 0 fun extension => extension.toList.length + 1)
      = name.toList.length := by
  have whole : (name.toList.reverse.takeWhile (· ≠ '.')).length
      + (name.toList.reverse.drop (name.toList.reverse.takeWhile (· ≠ '.')).length).length
        = name.toList.length := by
    have short := (List.takeWhile_prefix (l := name.toList.reverse) (· ≠ '.')).length_le
    rw [List.length_reverse] at short
    rw [List.length_drop, List.length_reverse]
    omega
  unfold divide
  dsimp only
  split
  · rename_i c stem split
    rw [split, List.length_cons] at whole
    split
    · rfl
    · simp only [String.toList_ofList, List.length_reverse, Option.elim_some]
      omega
  · rfl

/-- A text with a dash and without separators is a name. -/
private theorem isName_of_dash {text : String} (dash : '-' ∈ text.toList)
    (fresh : '/' ∉ text.toList) : IsName text := by
  refine ⟨?_, ?_, ?_, fresh⟩ <;>
    · rintro rfl
      simp at dash

theorem isName_snapshotName {isFolder : Bool} (named : IsName name)
    (ends : target.fileName? = some name) : IsName (snapshotName isFolder target) := by
  obtain ⟨stem_fresh, extension_fresh⟩ := unseparated_divide named.unseparated
  unfold snapshotName
  split
  · rw [ends, Option.getD_some]
    refine isName_of_dash ?_ ?_
    · simp [snapshotSuffix]
    · simp [snapshotSuffix, named.unseparated]
  · rw [stem?, extension?, ends, Option.map_some, Option.getD_some, Option.bind_some]
    dsimp only
    split
    · rename_i extension there
      have fresh := extension_fresh extension there
      refine isName_of_dash ?_ ?_
      · simp [snapshotSuffix]
      · simp [snapshotSuffix, stem_fresh, fresh]
    · refine isName_of_dash ?_ ?_
      · simp [snapshotSuffix]
      · simp [snapshotSuffix, stem_fresh]

/-- The name of a snapshot is longer than that of its target. -/
theorem snapshotName_ne {isFolder : Bool} (ends : target.fileName? = some name) :
    name ≠ snapshotName isFolder target := by
  intro same
  have long := congrArg (fun text => text.toList.length) same
  have divided := length_divide name
  unfold snapshotName at long
  rw [stem?, extension?, ends, Option.map_some, Option.getD_some, Option.getD_some,
    Option.bind_some] at long
  split at long
  · simp [snapshotSuffix] at long
  · split at long
    · rename_i extension there
      simp [there, snapshotSuffix] at divided long
      omega
    · rename_i there
      simp [there, snapshotSuffix] at divided long
      omega

/-- A snapshot lies in the folder that its target lies in. -/
theorem parts_snapshotPath (split : target.parts = parts ++ [.name name])
    (named : IsName (snapshotName (t.isFolder target) target)) :
    (snapshotPath t target).parts = parts ++ [.name (snapshotName (t.isFolder target) target)] := by
  obtain ⟨parent, found, spells⟩ := exists_parent split
  rw [snapshotPath, found]
  exact (parts_join named).trans (by rw [spells.parts_eq])

theorem closing_snapshotPath (split : target.parts = parts ++ [.name name])
    (named : IsName (snapshotName (t.isFolder target) target)) :
    (snapshotPath t target).closing = [] := by
  obtain ⟨parent, found, spells⟩ := exists_parent split
  rw [snapshotPath, found]
  exact closing_join named

theorem isName_staging (named : IsName name) : IsName (name ++ stagingSuffix) := by
  refine isName_of_dash ?_ ?_
  · simp [stagingSuffix]
  · simp [stagingSuffix, named.unseparated]

/-- A staging file lies beside its archive. -/
theorem parts_stagingFile (split : target.parts = parts ++ [.name name])
    (plain : target.closing = []) (named : IsName name) :
    (stagingFile target).parts = parts ++ [.name (name ++ stagingSuffix)] :=
  (parts_extend split plain (by decide) (isName_staging named)).1

theorem closing_stagingFile (split : target.parts = parts ++ [.name name])
    (plain : target.closing = []) (named : IsName name) : (stagingFile target).closing = [] :=
  (parts_extend split plain (by decide) (isName_staging named)).2

end ClassNaming
