import ClassNaming.Proofs.Run.RefusedFile
import ClassNaming.Proofs.Run.Sweep

/-!
# A sweep that stops changes nothing else

A file that cannot be swept stays as it was.  So however a sweep ends, every file at or below its
root was swept or is as it was, and nothing else has changed.

## Main Definitions

* `PartlySwept` - a tree in which some files were swept

## Main Results

* `exists_sweptUpTo` - a sweep of files that comes to one of them
* `Swept.fails_forM` - files that are swept up to the first that cannot be
* `partlySwept` - how every sweep ends
* `sweep_leaves_others` - what no sweep changes
-/

namespace ClassNaming

open FileTree Archive

variable {renamer : Renamer} {w w' : World} {t u : FileTree} {p root : Path} {spot : Spot}
  {f : Failure} {outcome : Except Failure Tally}

/-! ### Files up to the first that cannot be swept -/

/-- When files were swept up to one of them, that one is as it was, and still where it was. -/
theorem Swept.upTo {done : Spot → Prop} {before : Nat} {front back : List Path} {stop : Path}
    (swept : Swept renamer t done before w)
    (files : ∀ p ∈ front ++ stop :: back, ∃ folder name, FileAt t p folder name ∧
      ¬ done (folder ++ [name]))
    (apart : (front ++ stop :: back).Pairwise fun p q =>
      ∀ spot, Names t.item? p spot → ¬ Names t.item? q spot)
    (sweeps : Does (front.forM (sweepFile renamer)) w .unit w') :
    Swept renamer t (fun other => done other ∨ ∃ p ∈ front, Names t.item? p other) before w' ∧
      ∃ folder name, FileAt t stop folder name ∧ FileAt w'.files stop folder name ∧
        w'.files.item? (folder ++ [name]) = t.item? (folder ++ [name]) := by
  obtain ⟨apartFront, -, apartStop⟩ := List.pairwise_append.mp apart
  obtain ⟨folder, name, at_, fresh⟩ := files stop (by simp)
  have swept' := swept.forM (fun p mem => files p (List.mem_append_left _ mem)) apartFront sweeps
  have still : ¬ (done (folder ++ [name]) ∨ ∃ p ∈ front, Names t.item? p (folder ++ [name])) := by
    rintro (yes | ⟨p, mem, names⟩)
    · exact fresh yes
    · exact apartStop p mem stop List.mem_cons_self _ names at_.names
  exact ⟨swept', folder, name, at_, swept'.fileAt at_ still, swept'.elsewhere _ still⟩

/-- Files are swept up to the first that cannot be, which is still where it was. -/
theorem Swept.fails_forM {done : Spot → Prop} {before : Nat} {paths : List Path}
    (swept : Swept renamer t done before w)
    (files : ∀ p ∈ paths, ∃ folder name, FileAt t p folder name ∧ ¬ done (folder ++ [name]))
    (apart : paths.Pairwise fun p q => ∀ spot, Names t.item? p spot → ¬ Names t.item? q spot)
    (fails : Fails (paths.forM (sweepFile renamer)) w f w') :
    ∃ front stop back folder name v, paths = front ++ stop :: back ∧
      Swept renamer t (fun other => done other ∨ ∃ p ∈ front, Names t.item? p other) before v ∧
      FileAt t stop folder name ∧ FileAt v.files stop folder name ∧
      Fails (sweepFile renamer stop) v f w' := by
  obtain ⟨front, stop, back, v, rfl, sweeps, stops⟩ := exists_of_fails_forM fails
  obtain ⟨swept', folder, name, at_, still, -⟩ := swept.upTo files apart sweeps
  exact ⟨front, stop, back, folder, name, v, rfl, swept', at_, still, stops⟩

/-- A sweep gets to a file if all files before it can be swept.  The file is as it was then. -/
theorem exists_sweptUpTo {entries : List ListedItem} {before after : List Path} {stop : Path}
    (listed : w.files.listing root = .ok entries)
    (finds : FindsFiles w.files spot (filePaths root entries))
    (split : filePaths root entries = before ++ stop :: after)
    (ready : ∀ p ∈ before, Ready renamer w.files p) :
    ∃ v u folder name, Does (filesUnder root) w (filePaths root entries) v ∧
      Does (before.forM (sweepFile renamer))
        { v with progress := v.progress.count fun _ => .zero } .unit u ∧
      FileAt w.files stop folder name ∧ FileAt u.files stop folder name ∧
      u.files.item? (folder ++ [name]) = w.files.item? (folder ++ [name]) := by
  obtain ⟨v, same, found⟩ := exists_filesUnder listed
  let start : World := { v with progress := v.progress.count fun _ => .zero }
  have begun : Swept renamer start.files (fun _ => False) start.progress.tally.classesRenamed
    start := .start
  rw [show start.files = w.files from same] at begun
  obtain ⟨files, apart, -⟩ := finds
  rw [split] at files apart
  have fresh : ∀ p ∈ before ++ stop :: after, ∃ folder name, FileAt w.files p folder name ∧
      ¬ False := by
    intro p mem
    obtain ⟨folder, name, at_⟩ := files p mem
    exact ⟨folder, name, at_, id⟩
  obtain ⟨u, sweeps⟩ := begun.exists_forM (fun p mem => fresh p (List.mem_append_left _ mem))
    (List.pairwise_append.mp apart).1 ready
  obtain ⟨-, folder, name, at_, still, unchanged⟩ := begun.upTo fresh apart sweeps
  exact ⟨v, u, folder, name, found, sweeps, at_, still, unchanged⟩

/-- A tree in which some files at or below a spot were swept, and nothing else was changed. -/
structure PartlySwept (renamer : Renamer) (t : FileTree) (spot : Spot) (u : FileTree) : Prop where
  elsewhere : ∀ other, ¬ FileBelow t spot other → u.item? other = t.item? other
  files : ∀ other, FileBelow t spot other → u.item? other = t.item? other ∨
    ∃ isNew out, SweepsAt renamer t other isNew out ∧ u.item? other = some (.file out)

namespace PartlySwept

/-- A tree is partly swept before the sweep. -/
theorem refl : PartlySwept renamer t spot t := ⟨fun _ _ => rfl, fun _ _ => .inl rfl⟩

/-- What was swept of the files below the root is part of the sweep. -/
theorem of_swept {done : Spot → Prop} {before : Nat} (swept : Swept renamer t done before w)
    (only : ∀ other, done other → FileBelow t spot other)
    (same : ∀ other, u.item? other = w.files.item? other) : PartlySwept renamer t spot u where
  elsewhere other outside := by
    rw [same]
    exact swept.elsewhere other fun yes => outside (only other yes)
  files other _ := by
    rw [same]
    by_cases yes : done other
    · exact .inr (swept.files other yes)
    · exact .inl (swept.elsewhere other yes)

/-- Where something changed there was a file, and still is. -/
theorem item_cases (partly : PartlySwept renamer t spot u) (other : Spot) :
    u.item? other = t.item? other ∨
      (∃ old, t.item? other = some (.file old)) ∧ ∃ new, u.item? other = some (.file new) := by
  by_cases below : FileBelow t spot other
  · rcases partly.files other below with same | ⟨_, new, -, now⟩
    · exact .inl same
    · exact .inr ⟨below.2, new, now⟩
  · exact .inl (partly.elsewhere other below)

/-- Folders and links are as they were. -/
theorem subWays (partly : PartlySwept renamer t spot u) : SubWays t.item? u.item? := by
  intro other item no_file there
  rcases partly.item_cases other with same | ⟨⟨content, old⟩, -⟩
  · exact same.trans there
  · exact absurd (Option.some.inj (there.symm.trans old)) (no_file content)

/-- A tree that is partly swept is one that a disk can hold. -/
theorem ordinary (partly : PartlySwept renamer t spot u) (ordinary : t.Ordinary) :
    u.Ordinary := by
  intro folder name some
  have there : (t.item? (folder ++ [name])).isSome := by
    rcases partly.item_cases (folder ++ [name]) with same | ⟨⟨content, old⟩, -⟩
    · rwa [← same]
    · rw [old]
      rfl
  obtain ⟨top, named⟩ := ordinary there
  exact ⟨partly.subWays (by simp) top, named⟩

/-- No staging file remains. -/
theorem stagingFree (partly : PartlySwept renamer t spot u) (free : StagingFree t spot) :
    StagingFree u spot := by
  rintro folder name ⟨inside, content, now⟩ kind
  have below : FileBelow t spot (folder ++ [name]) := by
    rcases partly.item_cases (folder ++ [name]) with same | ⟨old, -⟩
    · exact ⟨inside, content, same.symm.trans now⟩
    · exact ⟨inside, old⟩
  have vacant := free folder name below kind
  rcases partly.item_cases (folder ++ [name ++ stagingSuffix]) with same | ⟨⟨content, old⟩, -⟩
  · exact same.trans vacant
  · cases vacant.symm.trans old

end PartlySwept

/-- If a sweep fails, then its root cannot be listed, or one of the files cannot be swept. -/
theorem fails_sweep (fails : Fails (sweep renamer root) w f w') :
    w.files = w'.files ∧ f.isOfSystem = true ∨
      ∃ entries v, w.files.listing root = .ok entries ∧ v.files = w.files ∧
        Fails ((filePaths root entries).forM (sweepFile renamer)) v f w' := by
  simp only [sweep, filesUnder, fails_bind, does_bind, does_countNow, fails_countNow, does_get,
    fails_get, does_pure, fails_pure, false_or, and_false, exists_false, or_false] at fails
  rcases fails with (unlisted | ⟨_, v, told, unlisted⟩) |
    ⟨paths, _, ⟨_, v, told, entries, _, listed, rfl, rfl⟩, _, _, rfl, sweeps⟩
  · exact absurd unlisted fails_tellListing
  · obtain ⟨t, unlisted', rfl⟩ := fails_onFiles.mp unlisted
    obtain ⟨same, system⟩ := fails_listNow unlisted'
    exact .inl ⟨(does_tellListing told).trans same, system⟩
  · right
    have same := does_tellListing told
    simp only [does_onFiles, listNow, does_bind, does_get, does_demand] at listed
    obtain ⟨_, ⟨_, _, ⟨rfl, rfl⟩, listed, rfl⟩, rfl⟩ := listed
    exact ⟨entries, { v with progress := v.progress.count fun _ => .zero }, same ▸ listed,
      same.symm, sweeps⟩

/-- **However a sweep ends**, if it does, every file at or below its root was swept or is as it was,
and nothing else has changed. -/
theorem partlySwept {item : Item} (ordinary : w.files.Ordinary)
    (found : w.files.find .entry root = .ok (spot, item)) (no_link : ∀ target, item ≠ .link target)
    (free : StagingFree w.files spot) (ends : ending (sweep renamer root) w = some (outcome, w')) :
    PartlySwept renamer w.files spot w'.files := by
  rcases does_or_fails ends with ⟨tally, -, does⟩ | ⟨f, -, fails⟩
  · obtain ⟨swept, -⟩ := swept_of_sweep ordinary found no_link free does
    exact .of_swept swept (fun _ yes => yes) fun _ => rfl
  · rcases fails_sweep fails with ⟨same, -⟩ | ⟨entries, v, listed, files, stops⟩
    · rw [← same]
      exact .refl
    · have finds := findsFiles_of_listing ordinary found no_link free listed
      rw [← files] at finds
      obtain ⟨front, stop, back, folder, name, u, split, swept, -, at_, fails'⟩ :=
        Swept.start.fails_forM (fun p mem => by
          obtain ⟨folder, name, at_⟩ := finds.files p mem
          exact ⟨folder, name, at_, id⟩) finds.apart stops
      rw [files] at swept finds
      refine .of_swept swept (fun other yes => ?_) (sweepFile_fails at_ fails')
      obtain ⟨p, mem, names⟩ := yes.resolve_left id
      exact (finds.named other).mp ⟨p, split ▸ List.mem_append_left _ mem, names⟩

/-- **No sweep changes a file that is neither a class nor an archive, or anything outside its
root**, whether it goes well or fails. -/
theorem sweep_leaves_others {item : Item} (ordinary : w.files.Ordinary)
    (found : w.files.find .entry root = .ok (spot, item)) (no_link : ∀ target, item ≠ .link target)
    (free : StagingFree w.files spot) (ends : ending (sweep renamer root) w = some (outcome, w')) :
    (∀ folder name content, spot <+: folder ++ [name] →
      w.files.item? (folder ++ [name]) = some (.file content) → Path.kind ⟨name⟩ = .other →
      w'.files.item? (folder ++ [name]) = some (.file content)) ∧
    ∀ other, ¬ spot <+: other → w'.files.item? other = w.files.item? other := by
  have partly := partlySwept ordinary found no_link free ends
  constructor
  · intro folder name content inside there kind
    rcases partly.files _ ⟨inside, content, there⟩ with same | ⟨isNew, out, sweeps, now⟩
    · exact same.trans there
    · obtain ⟨folder', name', content', same, there', sweeps⟩ := sweeps
      obtain ⟨rfl, last⟩ := List.append_inj' same rfl
      cases last
      cases there.symm.trans there'
      rw [kind] at sweeps
      cases sweeps
      exact now
  · exact fun other outside => partly.elsewhere other fun below => outside below.1

namespace BrokenFolder

/-- A folder with an empty archive, a text, and a file that is called a class but is none. -/
def tree : FileTree :=
  (((FileTree.empty.put ["w"] .folder).put ["w", "a.jar"] (.file (encode []))).put ["w", "b"]
    (.file ⟨#[120]⟩)).put ["w", "c.class"] (.file ⟨#[0]⟩)

def world : World := .ofFiles ⟨"/"⟩ tree

/-- An empty archive, a text and a broken class lie in the folder. -/
theorem item_tree (other : Spot) : tree.item? other =
    if other = ["w", "c.class"] then some (.file ⟨#[0]⟩)
    else if other = ["w", "b"] then some (.file ⟨#[120]⟩)
    else if other = ["w", "a.jar"] then some (.file (encode []))
    else if other = ["w"] then some .folder
    else if other = [] then some .folder else none := by
  unfold tree
  rw [item?_put (by simp), item?_put (by simp), item?_put (by simp), item?_put (by simp),
    item?_empty]

theorem ordinary_folder : (FileTree.empty.put ["w"] .folder).Ordinary := by
  have top : (FileTree.empty.put ([] ++ ["w"]) .folder).Ordinary :=
    ordinary_empty.put item?_root (by constructor <;> decide) (by decide) (by decide)
  exact top

theorem ordinary_tree : tree.Ordinary := by
  have first : ((FileTree.empty.put ["w"] .folder).put (["w"] ++ ["a.jar"])
      (.file (encode []))).Ordinary :=
    ordinary_folder.put (by decide) (by constructor <;> decide) (by decide) (by decide)
  have second : (((FileTree.empty.put ["w"] .folder).put (["w"] ++ ["a.jar"])
      (.file (encode []))).put (["w"] ++ ["b"]) (.file ⟨#[120]⟩)).Ordinary :=
    first.put (by decide) (by constructor <;> decide) (by decide) (by decide)
  have third : ((((FileTree.empty.put ["w"] .folder).put (["w"] ++ ["a.jar"])
      (.file (encode []))).put (["w"] ++ ["b"]) (.file ⟨#[120]⟩)).put (["w"] ++ ["c.class"])
        (.file ⟨#[0]⟩)).Ordinary :=
    second.put (by decide) (by constructor <;> decide) (by decide) (by decide)
  exact third

/-- Nothing lies where the archive is to be staged. -/
theorem free : StagingFree tree ["w"] := by
  rintro folder name ⟨-, content, there⟩ kind
  rw [item_tree] at there
  split at there
  case isTrue same =>
    obtain ⟨rfl, last⟩ := List.append_inj' (same.trans (by rfl : _ = ["w"] ++ ["c.class"])) rfl
    cases last
    exact absurd kind (by decide)
  split at there
  case isTrue same =>
    obtain ⟨rfl, last⟩ := List.append_inj' (same.trans (by rfl : _ = ["w"] ++ ["b"])) rfl
    cases last
    exact absurd kind (by decide)
  split at there
  case isTrue same =>
    obtain ⟨rfl, last⟩ := List.append_inj' (same.trans (by rfl : _ = ["w"] ++ ["a.jar"])) rfl
    cases last
    decide
  split at there
  case isTrue => cases there
  split at there <;> cases there

/-- The sweep stages the archive, fails at the class, and leaves the text as it is. -/
theorem leaves_text : Path.kind ⟨"a.jar"⟩ = .archive ∧ StagingFree tree ["w"] ∧
    ∃ f w', Fails (sweep OneDetail.renamer ⟨"w"⟩) world f w' ∧
      w'.files.item? (["w"] ++ ["b"]) = some (.file ⟨#[120]⟩) := by
  have found : tree.find .entry ⟨"w"⟩ = .ok (["w"], .folder) := by decide
  obtain ⟨f, w', fails, -⟩ :=
    exists_of_failed (sweep OneDetail.renamer ⟨"w"⟩) world (fun _ => true) (by decide +kernel)
  exact ⟨by decide, free, f, w', fails,
    (sweep_leaves_others ordinary_tree found (by simp) free fails).1 ["w"] "b" ⟨#[120]⟩ (by decide)
      (by decide) (by decide)⟩

end BrokenFolder

namespace TakenStaging

/-- A folder with an empty archive, and an item where the archive is to be staged. -/
def tree (taken : Item) : FileTree :=
  ((FileTree.empty.put ["w"] .folder).put ["w", "x.jar"] (.file (encode []))).put
    ["w", "x.jar.remap-tmp"] taken

/-- The same tree with a text beside the folder. -/
def besideText (taken : Item) : FileTree := (tree taken).put ["b"] (.file ⟨#[120]⟩)

theorem ordinary_tree (taken : Item) : (tree taken).Ordinary := by
  have first : ((FileTree.empty.put ["w"] .folder).put (["w"] ++ ["x.jar"])
      (.file (encode []))).Ordinary :=
    BrokenFolder.ordinary_folder.put (by decide) (by constructor <;> decide) (by decide) (by decide)
  have second : (((FileTree.empty.put ["w"] .folder).put (["w"] ++ ["x.jar"])
      (.file (encode []))).put (["w"] ++ ["x.jar.remap-tmp"]) taken).Ordinary :=
    first.put (by decide) (by constructor <;> decide) (by decide) (by decide)
  exact second

theorem ordinary_besideText (taken : Item) : (besideText taken).Ordinary := by
  have top : ((tree taken).put ([] ++ ["b"]) (.file ⟨#[120]⟩)).Ordinary :=
    (ordinary_tree taken).put item?_root (by constructor <;> decide) (by decide) (by rfl)
  exact top

/-- A text that has the path of a staging file is removed with it, and a text outside the folder is
overwritten by way of a link that has such a path. -/
theorem loses_text : (tree (.file ⟨#[120]⟩)).Ordinary ∧
    (tree (.file ⟨#[120]⟩)).find .entry ⟨"w"⟩ = .ok (["w"], .folder) ∧
    Path.kind ⟨"x.jar.remap-tmp"⟩ = .other ∧
    (tree (.file ⟨#[120]⟩)).item? ["w", "x.jar.remap-tmp"] = some (.file ⟨#[120]⟩) ∧
    (∃ outcome w', ending (sweep OneDetail.renamer ⟨"w"⟩)
      (.ofFiles ⟨"/"⟩ (tree (.file ⟨#[120]⟩))) = some (outcome, w') ∧
      w'.files.item? ["w", "x.jar.remap-tmp"] = none) ∧
    (besideText (.link ⟨"../b"⟩)).Ordinary ∧
    (besideText (.link ⟨"../b"⟩)).find .entry ⟨"w"⟩ = .ok (["w"], .folder) ∧
    (besideText (.link ⟨"../b"⟩)).item? ["b"] = some (.file ⟨#[120]⟩) ∧
    ∃ outcome w', ending (sweep OneDetail.renamer ⟨"w"⟩)
      (.ofFiles ⟨"/"⟩ (besideText (.link ⟨"../b"⟩))) = some (outcome, w') ∧
      w'.files.item? ["b"] = some (.file (encode [])) := by
  refine ⟨ordinary_tree _, by decide, by decide, by decide, ?_, ordinary_besideText _,
    by decide, by decide, ?_⟩
  · obtain ⟨outcome, w', ends, removed⟩ := exists_of_ending (sweep OneDetail.renamer ⟨"w"⟩)
      (.ofFiles ⟨"/"⟩ (tree (.file ⟨#[120]⟩)))
      (fun w' => decide (w'.files.item? ["w", "x.jar.remap-tmp"] = none)) (by decide +kernel)
    exact ⟨outcome, w', ends, of_decide_eq_true removed⟩
  · obtain ⟨outcome, w', ends, overwritten⟩ := exists_of_ending (sweep OneDetail.renamer ⟨"w"⟩)
      (.ofFiles ⟨"/"⟩ (besideText (.link ⟨"../b"⟩)))
      (fun w' => decide (w'.files.item? ["b"] = some (.file (encode [])))) (by decide +kernel)
    exact ⟨outcome, w', ends, of_decide_eq_true overwritten⟩

end TakenStaging

end ClassNaming
