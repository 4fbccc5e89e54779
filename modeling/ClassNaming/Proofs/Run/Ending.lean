import ClassNaming.Proofs.Detail.Endless
import ClassNaming.Proofs.Files.Absolute
import ClassNaming.Proofs.Mapping.RoundTrip
import ClassNaming.Proofs.Run.Prepared
import ClassNaming.Proofs.Run.SweepingEnd

/-!
# How a run ends

The exit status, the output and the files that a run leaves tell the same story.  A run that has no
renamer fails at once.  All others are transactions with a sweep.  Such a run may go on for ever
with a detail that is renamed for ever, and then it tells nothing.

## Main Definitions

* `RunAgrees` - what status, output and files of a run tell of each other

## Main Results

* `runProgram_ends` - the end of a run
* `runProgram_agrees` - what every run tells
* `runProgram_eq_none_of_file` - a run that never ends, as on the class of `EndlessDetail`
-/

namespace ClassNaming

open FileTree Archive

variable {renamer : Renamer} {w : World} {t : FileTree} {target snapshot : Path} {spot copy : Spot}

/-! ### A run -/

section Run

variable {directory : Path} {arguments : List String} {parsed : Arguments}

/-- The program ends as its work does, with the status, the output and the errors that this gives.
-/
theorem runProgram_of_ending {written : Option String} {result : Except Failure Unit}
    (reads : Arguments.parse arguments = .ok parsed)
    (ends : ending (runWith parsed) (.ofFiles directory t) = some (result, w)) :
    runProgram directory written arguments t
      = some (finishOf (filterOf written parsed.verbosity) result w, w.files) := by
  have ends : (runWith parsed).runOn (.ofFiles directory t) = some (result, w) := ends
  unfold runProgram
  rw [reads]
  dsimp only
  rw [ends]
  rfl

/-- It goes on for ever if its work does. -/
theorem runProgram_of_goesOn {written : Option String}
    (reads : Arguments.parse arguments = .ok parsed)
    (goesOn : GoesOn (runWith parsed) (.ofFiles directory t)) :
    runProgram directory written arguments t = none := by
  have endless : (runWith parsed).runOn (.ofFiles directory t) = none := goesOn
  unfold runProgram
  rw [reads]
  dsimp only
  rw [endless]
  rfl

/-- A separator may be added to a target that is a folder, if the path of its snapshot can be
followed. -/
theorem check_target_join {path : Path} {name : String} (named : Path.IsDirectory directory)
    (ends : (Path.absolute directory path).fileName? = some name)
    (checked : (Path.absolute directory path).check = .ok ())
    (checked' : (snapshotPath t (Path.absolute directory path)).check = .ok ())
    (is_folder : t.isFolder (Path.absolute directory path) = true) :
    ((Path.absolute directory path).join "").check = .ok () := by
  obtain ⟨parts, split, is_name⟩ := Path.exists_fileName ends
  have snapshot : snapshotName (t.isFolder (Path.absolute directory path))
      (Path.absolute directory path) = name ++ snapshotSuffix := by
    rw [is_folder, snapshotName, if_pos rfl, ends, Option.getD_some]
  have split' := parts_snapshotPath (t := t) split (isName_snapshotName is_name ends)
  rw [snapshot] at split'
  exact Path.check_absolute_join named split checked checked' split' (by decide)

/-- **How a run ends**: at once, without a renamer, or as a transaction with a sweep does, if that
ends. -/
theorem runProgram_ends (written : Option String) (named : Path.IsDirectory directory)
    (reads : Arguments.parse arguments = .ok parsed)
    (begins : Path.absolute directory ⟨parsed.path⟩ = target)
    (there : t.exists? target = true) (at_ : TargetAt t target spot copy)
    (free : StagingFree t spot) :
    ((∀ renamer, ¬ Prepares t directory parsed renamer) ∧ ∃ finish,
      runProgram directory written arguments t = some (finish, t) ∧
      finish.status = 1 ∧ finish.output = []) ∨
    ∃ renamer, Prepares t directory parsed renamer ∧
      ((∃ finish left, runProgram directory written arguments t = some (finish, left) ∧
        SweepingEnd t target (snapshotPath t target) spot copy finish.status finish.output left) ∨
      runProgram directory written arguments t = none ∧
        Takeable t target (snapshotPath t target) spot copy ∧ EndlessBelow renamer t spot) := by
  subst begins
  by_cases prepared : ∃ renamer, Prepares t directory parsed renamer
  swap
  · rw [not_exists] at prepared
    obtain ⟨f, w', fails, rfl, printed⟩ := runWith_unprepared
      (w := .ofFiles directory t) there prepared
    refine .inl ⟨prepared, _, runProgram_of_ending reads fails, rfl, ?_⟩
    show w'.output = []
    rw [World.output, printed]
    rfl
  · obtain ⟨renamer, prepared⟩ := prepared
    refine .inr ⟨renamer, prepared, ?_⟩
    obtain ⟨v, rfl, printed, endless, failing, going⟩ :=
      runWith_of_prepares (w := .ofFiles directory t) there prepared
    obtain ⟨parent, name, folder, -, ends, -⟩ := at_.beside
    rcases transact_sweep_ends printed there at_ free (Path.absolute_tidy named ends).1
      (check_target_join named ends) with
      ⟨f, w', fails, sweeping⟩ | ⟨outcome, w', does, sweeping⟩ | ⟨goesOn, takeable, below⟩
    · exact .inl ⟨_, _, runProgram_of_ending reads (failing f w' fails), sweeping⟩
    · obtain ⟨w'', does, files, printed⟩ := going outcome w' does
      refine .inl ⟨_, _, runProgram_of_ending reads does, ?_⟩
      show SweepingEnd _ _ _ _ _ 0 w''.output w''.files
      rw [files, World.output, printed]
      exact sweeping
    · exact .inr ⟨runProgram_of_goesOn reads (endless goesOn), takeable, below⟩

/-- What the exit status, the output and the files of a run tell of each other, and when it tells
nothing.  The target lies at a spot and its snapshot at another one; `prepares` holds of the renamer
of the run, if it has one. -/
structure RunAgrees (t : FileTree) (prepares : Renamer → Prop) (target snapshot : Path)
    (spot copy : Spot) (run : Option (Finish × FileTree)) : Prop where
  /-- Without a renamer the run fails, prints nothing, and changes nothing. -/
  unprepared : (∀ renamer, ¬ prepares renamer) → ∃ finish, run = some (finish, t) ∧
    finish.status = 1 ∧ finish.output = []
  /-- If it has a renamer, but the snapshot cannot be taken, it fails, prints nothing, and changes
  nothing but what lies where the snapshot was to be. -/
  untaken : ∀ renamer, prepares renamer → ¬ Takeable t target snapshot spot copy →
    ∃ finish left, run = some (finish, left) ∧ finish.status = 1 ∧ finish.output = [] ∧
      ∀ other, ¬ copy <+: other → left.item? other = t.item? other
  /-- If it prints that something was renamed, it goes well, neither a snapshot nor a staging file
  is left, and the target differs, unless an archive seems to be large. -/
  kept : ∀ finish left, run = some (finish, left) → keptLine ∈ finish.output →
    finish.status = 0 ∧ (∀ names, left.item? (copy ++ names) = none) ∧ StagingFree left spot ∧
    (PlainArchives t spot → ∃ other, spot <+: other ∧ left.item? other ≠ t.item? other)
  /-- If it prints that nothing was renamed, it goes well, and everything is as it was, save that
  nothing lies where the snapshot was. -/
  restored : Direct t target spot → ∀ finish left, run = some (finish, left) →
    restoredLine ∈ finish.output → finish.status = 0 ∧ t.Cleared copy left
  /-- If it fails after it has printed where the snapshot is, it prints neither of these lines, no
  staging file is left, and the snapshot is a copy of the target as it was. -/
  failed : Direct t target spot → ∀ finish left, run = some (finish, left) → finish.status ≠ 0 →
    takenLine snapshot ∈ finish.output → keptLine ∉ finish.output ∧
      restoredLine ∉ finish.output ∧ StagingFree left spot ∧
      ∀ names, left.item? (copy ++ names) = t.item? (spot ++ names)
  /-- It goes on for ever only at a file of the target whose content is renamed for ever. -/
  endless : run = none → ∃ renamer, prepares renamer ∧ Takeable t target snapshot spot copy ∧
    EndlessBelow renamer t spot
  /-- If it comes to an end, it does so in one of these ways: without a renamer, with the target
  kept, with the target taken back, with a failure of the sweep, or without a snapshot. -/
  complete : Direct t target spot → ∀ finish left, run = some (finish, left) →
    ((∀ renamer, ¬ prepares renamer) ∧ finish.status = 1 ∧ finish.output = []) ∨
    (finish.status = 0 ∧ finish.output = [takenLine snapshot, keptLine]) ∨
    (finish.status = 0 ∧ finish.output = [takenLine snapshot, restoredLine]) ∨
    (finish.status = 1 ∧ finish.output = [takenLine snapshot]) ∨
    ((∃ renamer, prepares renamer) ∧ ¬ Takeable t target snapshot spot copy ∧
      finish.status = 1 ∧ finish.output = [])

/-- The line that tells where the snapshot is differs from both others by its first letter. -/
theorem takenLine_ne (snapshot : Path) :
    takenLine snapshot ≠ keptLine ∧ takenLine snapshot ≠ restoredLine := by
  have begins : (takenLine snapshot).toList.head? = some 'B' := by
    show ("Backup created: " ++ snapshot.text).toList.head? = some 'B'
    rw [String.toList_append]
    rfl
  constructor
  all_goals
    intro same
    rw [same] at begins
    exact absurd begins (by decide)

/-- Each end of a transaction with a sweep is one of those that the program tells of. -/
theorem SweepingEnd.agrees {prepares : Renamer → Prop} {finish : Finish} {left : FileTree}
    (prepared : prepares renamer)
    (ends : SweepingEnd t target snapshot spot copy finish.status finish.output left) :
    RunAgrees t prepares target snapshot spot copy (some (finish, left)) := by
  have ne : keptLine ≠ restoredLine := by decide
  obtain ⟨ne_kept, ne_restored⟩ := takenLine_ne snapshot
  have unprepared : ¬ ∀ renamer, ¬ prepares renamer := fun no => no renamer prepared
  obtain ⟨status, output, errors⟩ := finish
  cases ends with
  | untaken impossible elsewhere =>
    refine ⟨fun no => absurd no unprepared,
      fun _ _ _ => ⟨_, _, rfl, rfl, rfl, elsewhere⟩, ?_, ?_, ?_, nofun, ?_⟩
    · rintro _ _ ⟨⟩ ⟨⟩
    · rintro direct _ _ ⟨⟩ ⟨⟩
    · rintro direct _ _ ⟨⟩ - ⟨⟩
    · rintro direct _ _ ⟨⟩
      exact .inr (.inr (.inr (.inr ⟨⟨renamer, prepared⟩, impossible, rfl, rfl⟩)))
  | failed takeable staging held =>
    refine ⟨fun no => absurd no unprepared, fun _ _ no => absurd takeable no, ?_, ?_, ?_, nofun, ?_⟩
    · rintro _ _ ⟨⟩ printed
      simp [ne_kept.symm] at printed
    · rintro direct _ _ ⟨⟩ printed
      simp [ne_restored.symm] at printed
    · rintro direct _ _ ⟨⟩ - -
      exact ⟨by simp [ne_kept.symm], by simp [ne_restored.symm], staging, held⟩
    · rintro direct _ _ ⟨⟩
      exact .inr (.inr (.inr (.inl ⟨rfl, rfl⟩)))
  | kept takeable staging gone differs =>
    refine ⟨fun no => absurd no unprepared, fun _ _ no => absurd takeable no, ?_, ?_, ?_, nofun, ?_⟩
    · rintro _ _ ⟨⟩ -
      exact ⟨rfl, gone, staging, differs⟩
    · rintro direct _ _ ⟨⟩ printed
      simp [ne_restored.symm, ne.symm] at printed
    · rintro direct _ _ ⟨⟩ bad
      exact absurd rfl bad
    · rintro direct _ _ ⟨⟩
      exact .inr (.inl ⟨rfl, rfl⟩)
  | restored takeable cleared =>
    refine ⟨fun no => absurd no unprepared, fun _ _ no => absurd takeable no, ?_, ?_, ?_, nofun, ?_⟩
    · rintro _ _ ⟨⟩ printed
      simp [ne_kept.symm, ne] at printed
    · rintro direct _ _ ⟨⟩ -
      exact ⟨rfl, cleared⟩
    · rintro direct _ _ ⟨⟩ bad
      exact absurd rfl bad
    · rintro direct _ _ ⟨⟩
      exact .inr (.inr (.inl ⟨rfl, rfl⟩))
  | lost takeable detour =>
    refine ⟨fun no => absurd no unprepared, fun _ _ no => absurd takeable no, ?_,
      fun direct => absurd direct detour, fun direct => absurd direct detour, nofun,
      fun direct => absurd direct detour⟩
    rintro _ _ ⟨⟩ printed
    simp [ne_kept.symm, ne] at printed

end Run

theorem isDirectory_root : Path.IsDirectory ⟨"/"⟩ := ⟨[], by simp, rfl⟩

/-- The arguments of a run on a path, with the mapping `m`. -/
def argumentsFor (path : String) : Arguments :=
  { path, mapping := "m", mode := none, spanReplace := false, verbosity := 0 }

namespace EndlessDetail

/-- A detail that is renamed for ever. -/
def detail : String := String.ofList (Endless.spelled "ppc;pcccp;pppcccpcc")

/-- A class with that detail. -/
def content : ByteArray := Archive.ofOctets (MissedDetail.withDetail detail).toBytes

/-- The rows of the mapping with which it is renamed so. -/
def rows : List (List String) := Endless.mappings.map fun (old, new) =>
  [String.ofList (Endless.spelled old), String.ofList (Endless.spelled new)]

/-- The mapping, written out. -/
def mapping : String := MappingFile.render .verbatim ["intermediary", "named"] rows

/-- A tree with the class and the mapping. -/
def tree : FileTree :=
  (FileTree.empty.put ["A.class"] (.file content)).put ["m"] (.file mapping.toUTF8)

/-- The tree holds the class and the mapping, and nothing else. -/
theorem item_tree (other : Spot) : tree.item? other =
    if other = ["m"] then some (.file mapping.toUTF8)
    else if other = ["A.class"] then some (.file content)
    else if other = [] then some .folder else none := by
  unfold tree
  rw [item?_put (by simp), item?_put (by simp), item?_empty]

theorem ordinary_tree : tree.Ordinary := by
  have named : ∀ name ∈ ["A.class", "m"], IsName name := by
    simp only [List.mem_cons, List.not_mem_nil, or_false]
    rintro name (rfl | rfl) <;> constructor <;> decide
  have first : (FileTree.empty.put ([] ++ ["A.class"]) (.file content)).Ordinary :=
    ordinary_empty.put item?_root (named _ (by decide)) (by decide) (by decide)
  have vacant : (FileTree.empty.put ["A.class"] (.file content)).item? ["m"] = none := by
    rw [item?_put (by simp), item?_empty]
    rfl
  have second : ((FileTree.empty.put ["A.class"] (.file content)).put ([] ++ ["m"])
      (.file mapping.toUTF8)).Ordinary :=
    first.put item?_root (named _ (by decide)) (by decide) vacant
  exact second

/-- No archive lies there. -/
theorem free : StagingFree tree ["A.class"] := by
  rintro folder name ⟨⟨names, below⟩, content', there⟩ kind
  rw [item_tree] at there
  split at there
  case isTrue same => simp [← below] at same
  split at there
  case isTrue same =>
    obtain ⟨rfl, last⟩ := List.append_inj' (same.trans (by rfl : _ = [] ++ ["A.class"])) rfl
    cases last
    exact absurd kind (by decide)
  split at there <;> cases there

/-- The arguments name the class and the mapping, which lie at the root. -/
theorem reads_arguments :
    Arguments.parse ["A.class", "m"] = .ok (argumentsFor "A.class") ∧
    Path.absolute ⟨"/"⟩ ⟨"A.class"⟩ = ⟨"/A.class"⟩ ∧ tree.exists? ⟨"/A.class"⟩ = true ∧
    (stagingFile ⟨"/A.class"⟩).Short ∧
    tree.resolve .content (Path.absolute ⟨"/"⟩ ⟨"m"⟩) = .ok ["m"] ∧
    Beside tree ⟨"/A.class"⟩ ⟨"/"⟩ [] "A.class" "A-backup.class" ∧
    ((tree.dropBelow ["A-backup.class"]).drop ["A-backup.class"]).resolve .entry ⟨"/A.class"⟩ =
      .ok ["A.class"] ∧
    Followable ((tree.dropBelow ["A-backup.class"]).drop ["A-backup.class"]) ["A.class"]
      (.file content) ⟨"/A.class"⟩ (snapshotPath tree ⟨"/A.class"⟩) := by
  decide +kernel

theorem targetAt : TargetAt tree ⟨"/A.class"⟩ ["A.class"] ["A-backup.class"] :=
  reads_arguments.2.2.2.2.2.1.targetAt ordinary_tree (.inr ⟨content, by rw [item_tree]; rfl⟩)

/-- A snapshot can be taken, as nothing lies where it is to be. -/
theorem takeable : Takeable tree ⟨"/A.class"⟩ (snapshotPath tree ⟨"/A.class"⟩) ["A.class"]
    ["A-backup.class"] := by
  have there : ((tree.dropBelow ["A-backup.class"]).drop ["A-backup.class"]).item? ["A.class"]
      = some (.file content) := by
    rw [cleared_dropBelow (by decide), if_neg (by decide), item_tree]
    rfl
  obtain ⟨-, -, -, -, -, -, resolved, follows⟩ := reads_arguments
  exact ⟨.file content, find_eq_ok.mpr ⟨resolved, there⟩, follows⟩

/-- What is spelled by plain letters is plain. -/
theorem flat_spelled {letters : String} (flat : Text.Flat letters.toList) :
    Text.Flat (Endless.spelled letters) := by
  intro c mem
  obtain ⟨letter, inside, part⟩ := List.mem_flatMap.mp mem
  split at part
  · exact (by decide : Text.Flat NamingMode.packageRoot.toList) c part
  · exact (by decide : Text.Flat NamingMode.intermediary.classMarker.toList) c part
  · obtain rfl := List.mem_singleton.mp part
    exact flat _ inside

/-- The names of the mapping need no escapes. -/
theorem flat_rows : ∀ row ∈ rows, ∀ name ∈ row, Text.Flat name.toList := by
  have letters : ∀ row ∈ Endless.mappings,
      Text.Flat row.1.toList ∧ Text.Flat row.2.toList := by decide
  intro row mem name inside
  obtain ⟨⟨old, new⟩, mapped, rfl⟩ := List.mem_map.mp mem
  simp only [List.mem_cons, List.not_mem_nil, or_false] at inside
  rcases inside with rfl | rfl
  all_goals rw [String.toList_ofList]
  · exact flat_spelled (letters _ mapped).1
  · exact flat_spelled (letters _ mapped).2

/-- The mapping is the table that turns the detail for ever. -/
theorem parse_mapping : MappingTable.parse mapping = .ok Endless.table := by
  have classes : MappingFile.body2 2 ⟨true, false⟩ 2 []
      (rows.map fun row => Text.ofColumns (MappingFile.record .verbatim row)) =
        .ok ([].reverse ++ rows.map (MappingFile.filled 2)) :=
    MappingFile.body2_records true 2 [] rfl (by decide) fun _ => flat_rows
  have read : MappingFile.parse mapping =
      .ok ⟨.v2, ["intermediary", "named"], rows.map (MappingFile.filled 2)⟩ := by
    rw [mapping, MappingFile.parse_header (by decide) (by decide) fun _ => flat_rows]
    simp only [Dialect.version, Dialect.properties, Dialect.escapes, Bool.false_eq_true, if_false,
      List.nil_append, List.map_map, Function.comp_def]
    rw [show ["intermediary", "named"].length = 2 from rfl, classes]
    rfl
  rw [MappingTable.parse, read]
  rfl

/-- So the renamer of the run is the one that does not come to an end. -/
theorem prepares : Prepares tree ⟨"/"⟩ (argumentsFor "A.class") Endless.renamer := by
  have found : tree.find .content (Path.absolute ⟨"/"⟩ ⟨"m"⟩) =
      .ok (["m"], .file mapping.toUTF8) :=
    find_eq_ok.mpr ⟨reads_arguments.2.2.2.2.1, by rw [item_tree]; rfl⟩
  have reads : Does (readText (Path.absolute ⟨"/"⟩ ⟨"m"⟩)) tree mapping tree :=
    does_readText.mpr ⟨_, does_readFile.mpr ⟨⟨_, found⟩, rfl⟩, fromUTF8?_toUTF8 mapping⟩
  have detected : (argumentsFor "A.class").modeFor mapping = .intermediary := by
    rw [Arguments.modeFor, mapping, MappingFile.lines_render (by decide) fun _ => flat_rows]
    decide
  refine ⟨mapping, Endless.table, Endless.renamer.resolver, reads, parse_mapping, ?_, ?_⟩
  · rw [detected]
    rfl
  · rw [detected]
    rfl

end EndlessDetail

namespace MappedFolder

/-- A tree with a file in a folder, an old snapshot of the folder, and a mapping. -/
def tree : FileTree :=
  (OneFolder.tree.put ["w-backup"] .folder).put ["m"]
    (.file "tiny\t2\t0\tintermediary\tnamed\n".toUTF8)

theorem ordinary_tree : tree.Ordinary := by
  have named : ∀ name ∈ ["w-backup", "m"], IsName name := by
    simp only [List.mem_cons, List.not_mem_nil, or_false]
    rintro name (rfl | rfl) <;> constructor <;> decide
  have folder : (OneFolder.tree.put ([] ++ ["w-backup"]) .folder).Ordinary :=
    OneFolder.ordinary_tree.put item?_root (named _ (by decide)) (by decide) (by decide)
  have file : ((OneFolder.tree.put ["w-backup"] .folder).put ([] ++ ["m"])
      (.file "tiny\t2\t0\tintermediary\tnamed\n".toUTF8)).Ordinary :=
    folder.put item?_root (named _ (by decide)) (by decide) (by decide)
  exact file

/-- The folder holds no archive. -/
theorem free : StagingFree tree ["w"] := by
  rintro folder name ⟨⟨names, below⟩, content, there⟩ kind
  have inside : (folder ++ [name]).head? = some "w" := by rw [← below]; rfl
  rw [tree, item?_put (by simp), item?_put (by simp), OneFolder.tree, item?_put (by simp),
    item?_put (by simp), item?_empty] at there
  split at there
  case isTrue same => simp [same] at inside
  split at there
  case isTrue => cases there
  split at there
  case isTrue same =>
    obtain ⟨rfl, last⟩ := List.append_inj' (same.trans (by rfl : _ = ["w"] ++ ["a"])) rfl
    cases last
    exact absurd kind (by decide)
  split at there
  case isTrue => cases there
  split at there <;> cases there

/-- The arguments name the folder and the mapping, which lie at the root. -/
theorem reads_arguments :
    Arguments.parse ["w", "m"] = .ok (argumentsFor "w") ∧
    Path.absolute ⟨"/"⟩ ⟨"w"⟩ = ⟨"/w"⟩ ∧ tree.exists? ⟨"/w"⟩ = true ∧
    Beside tree ⟨"/w"⟩ ⟨"/"⟩ [] "w" "w-backup" ∧ Direct tree ⟨"/w"⟩ ["w"] := by
  decide +kernel

/-- The folder is there, whichever path leads to it. -/
theorem targetAt {path parent : Path} (beside : Beside tree path parent [] "w" "w-backup") :
    TargetAt tree path ["w"] ["w-backup"] :=
  beside.targetAt ordinary_tree (.inl (by decide))

/-- The mapping renames nothing. -/
theorem run_folder : (runProgram ⟨"/"⟩ none ["w", "m"] tree).map Prod.fst
    = some ⟨0, [takenLine ⟨"/w-backup"⟩, restoredLine], []⟩ := by
  decide +kernel

/-- The mapping serves every target. -/
theorem prepared (path : String) :
    ∃ renamer, Prepares tree ⟨"/"⟩ (argumentsFor path) renamer := by
  obtain ⟨parsed, begins, there, beside, -⟩ := reads_arguments
  rcases runProgram_ends none isDirectory_root parsed begins there (targetAt beside) free with
    ⟨-, finish, run, status, -⟩ | ⟨renamer, prepared, -⟩
  · have ends := run_folder
    rw [run] at ends
    cases (congrArg Finish.status (Option.some.inj ends)).symm.trans status
  · exact ⟨renamer, prepared⟩

end MappedFolder

end ClassNaming
