import ClassNaming.Proofs.Run.SweptFile

/-!
# A sweep changes file by file

A sweep gives every file at and below its root a content that depends on the name and the content of
that file alone, and changes nothing else.  So the order in which the files are swept does not
matter.  The counters tell if a file was given a new content.

## Main Definitions

* `Swept` - the state of a sweep of which some files are done
* `FindsFiles` - paths of all files at and below a spot
* `SweepEnd` - how a sweep ends that goes well

## Main Results

* `Swept.step`, `Swept.forM` - one more file is swept, and any files one after the other
* `findsFiles_of_listing` - a listing finds every file
* `sweep_maps_files` - every sweep that goes well
-/

namespace ClassNaming

open FileTree Archive

variable {renamer : Renamer} {w w' : World} {t u : FileTree} {p root : Path} {folder spot : Spot}
  {name : String} {content out : ByteArray} {isNew : Bool}

/-! ### Many files -/

/-- What becomes of the file at a spot. -/
def SweepsAt (renamer : Renamer) (t : FileTree) (spot : Spot) (isNew : Bool) (out : ByteArray) :
    Prop :=
  ∃ folder name content, spot = folder ++ [name] ∧ t.item? spot = some (.file content) ∧
    Sweeps renamer (Path.kind ⟨name⟩) content isNew out

/-- What becomes of the file depends on its name and its content. -/
theorem SweepsAt.sweeps (sweeps : SweepsAt renamer t (folder ++ [name]) isNew out)
    (there : t.item? (folder ++ [name]) = some (.file content)) :
    Sweeps renamer (Path.kind ⟨name⟩) content isNew out := by
  obtain ⟨folder', name', content', same, there', sweeps⟩ := sweeps
  obtain ⟨rfl, last⟩ := List.append_inj' same rfl
  cases last
  cases there.symm.trans there'
  exact sweeps

/-- What a sweep makes of a file is determined by the file. -/
theorem SweepsAt.unique {isNew' : Bool} {out' : ByteArray}
    (sweeps : SweepsAt renamer t spot isNew out)
    (sweeps' : SweepsAt renamer t spot isNew' out') : isNew = isNew' ∧ out = out' := by
  obtain ⟨folder, name, content, rfl, there, sweeps⟩ := sweeps
  exact sweeps.unique (sweeps'.sweeps there)

/-- A file can be swept that a path names: its content allows it, and the path is short enough. -/
structure Ready (renamer : Renamer) (t : FileTree) (p : Path) : Prop where
  short : p.Short
  staging : p.kind = .archive → (stagingFile p).Short
  allowed : ∀ spot, Names t.item? p spot → ∃ isNew out, SweepsAt renamer t spot isNew out

/-- The state of a sweep that has done the files at some spots; so many renamed classes were counted
before. -/
structure Swept (renamer : Renamer) (t : FileTree) (done : Spot → Prop) (before : Nat)
    (w : World) : Prop where
  elsewhere : ∀ other, ¬ done other → w.files.item? other = t.item? other
  files : ∀ other, done other → ∃ isNew out, SweepsAt renamer t other isNew out ∧
    w.files.item? other = some (.file out)
  grows : before ≤ w.progress.tally.classesRenamed
  counted : before < w.progress.tally.classesRenamed ↔
    ∃ other out, done other ∧ SweepsAt renamer t other true out

namespace Swept

variable {done : Spot → Prop} {before : Nat} {paths : List Path}

/-- Before a sweep no file is swept. -/
theorem start : Swept renamer w.files (fun _ => False) w.progress.tally.classesRenamed w where
  elsewhere _ _ := rfl
  files _ := False.elim
  grows := Nat.le_refl _
  counted := by simp

/-- Only files are changed by a sweep, so folders and links are as they were. -/
theorem subWays (swept : Swept renamer t done before w) : SubWays t.item? w.files.item? := by
  intro other item no_file there
  rw [swept.elsewhere, there]
  intro swept_before
  obtain ⟨_, _, ⟨_, _, content, -, there', -⟩, -⟩ := swept.files other swept_before
  exact no_file content (Option.some.inj (there.symm.trans there'))

/-- A file that is still to be swept is where it was. -/
theorem fileAt (swept : Swept renamer t done before w) (at_ : FileAt t p folder name)
    (fresh : ¬ done (folder ++ [name])) : FileAt w.files p folder name where
  split := by
    obtain ⟨parts, split, leads⟩ := at_.split
    exact ⟨parts, split, leads.congr swept.subWays⟩
  plain := at_.plain
  file := by
    rw [swept.elsewhere _ fresh]
    exact at_.file
  free kind := by
    rw [swept.elsewhere, at_.free kind]
    intro swept_before
    obtain ⟨_, _, ⟨_, _, content, -, there, -⟩, -⟩ := swept.files _ swept_before
    cases (at_.free kind).symm.trans there

/-- **One more file is swept.** -/
theorem step (swept : Swept renamer t done before w) (at_ : FileAt t p folder name)
    (fresh : ¬ done (folder ++ [name])) (does : Does (sweepFile renamer p) w () w') :
    Swept renamer t (fun other => done other ∨ other = folder ++ [name]) before w' := by
  obtain ⟨content, isNew, out, old, sweeps, after, grows, counted⟩ :=
    sweepFile_sweeps (swept.fileAt at_ fresh) does
  rw [swept.elsewhere _ fresh] at old
  have here : SweepsAt renamer t (folder ++ [name]) isNew out := ⟨_, _, _, rfl, old, sweeps⟩
  have new : (∃ out, SweepsAt renamer t (folder ++ [name]) true out) ↔ isNew = true :=
    ⟨fun ⟨_, sweeps'⟩ => (here.unique sweeps').1, fun new => ⟨out, new ▸ here⟩⟩
  refine ⟨fun other no => ?_, fun other yes => ?_, swept.grows.trans grows, ?_⟩
  · rw [not_or] at no
    rw [after, if_neg no.2, swept.elsewhere other no.1]
  · by_cases same : other = folder ++ [name]
    · subst same
      exact ⟨isNew, out, here, after.there⟩
    · obtain ⟨isNew', out', sweeps', there⟩ := swept.files other (yes.resolve_right same)
      exact ⟨isNew', out', sweeps', by rw [after, if_neg same, there]⟩
  · have split : before < w'.progress.tally.classesRenamed ↔
        before < w.progress.tally.classesRenamed ∨
          w.progress.tally.classesRenamed < w'.progress.tally.classesRenamed := by
      have := swept.grows
      omega
    rw [split, swept.counted, counted, ← new]
    constructor
    · rintro (⟨other, out, yes, sweeps'⟩ | ⟨out, sweeps'⟩)
      · exact ⟨other, out, .inl yes, sweeps'⟩
      · exact ⟨_, out, .inr rfl, sweeps'⟩
    · rintro ⟨other, out, yes | rfl, sweeps'⟩
      · exact .inl ⟨other, out, yes, sweeps'⟩
      · exact .inr ⟨out, sweeps'⟩

/-- Files under other paths are still to be swept after a file was. -/
theorem fresh_of_apart (at_ : FileAt t p folder name)
    (files : ∀ q ∈ paths, ∃ folder name, FileAt t q folder name ∧ ¬ done (folder ++ [name]))
    (apart : ∀ q ∈ paths, ∀ spot, Names t.item? p spot → ¬ Names t.item? q spot) (q : Path)
    (mem : q ∈ paths) : ∃ folder' name', FileAt t q folder' name' ∧
      ¬ (done (folder' ++ [name']) ∨ folder' ++ [name'] = folder ++ [name]) := by
  obtain ⟨folder', name', at', fresh⟩ := files q mem
  refine ⟨folder', name', at', ?_⟩
  rintro (yes | same)
  · exact fresh yes
  · exact apart q mem _ at_.names (same ▸ at'.names)

/-- **Files are swept one after the other**, each of them once. -/
theorem forM (swept : Swept renamer t done before w)
    (files : ∀ p ∈ paths, ∃ folder name, FileAt t p folder name ∧ ¬ done (folder ++ [name]))
    (apart : paths.Pairwise fun p q => ∀ spot, Names t.item? p spot → ¬ Names t.item? q spot)
    (does : Does (paths.forM (sweepFile renamer)) w () w') :
    Swept renamer t (fun other => done other ∨ ∃ p ∈ paths, Names t.item? p other) before w' := by
  induction paths generalizing done w with
  | nil =>
    obtain ⟨-, rfl⟩ := does_pure.mp does
    simpa using swept
  | cons p rest ih =>
    obtain ⟨_, v, first, later⟩ := does_bind.mp does
    obtain ⟨folder, name, at_, fresh⟩ := files p List.mem_cons_self
    rw [List.pairwise_cons] at apart
    have remain := fresh_of_apart at_ (fun q mem => files q (List.mem_cons_of_mem _ mem)) apart.1
    have all := ih (swept.step at_ fresh first) remain apart.2 later
    have named : ∀ other, Names t.item? p other ↔ other = folder ++ [name] :=
      fun other => ⟨fun names => names.unique at_.names, fun same => same ▸ at_.names⟩
    simpa only [List.mem_cons, exists_eq_or_imp, named, or_assoc] using all

/-- Files whose contents allow it are swept one after the other. -/
theorem exists_forM (swept : Swept renamer t done before w)
    (files : ∀ p ∈ paths, ∃ folder name, FileAt t p folder name ∧ ¬ done (folder ++ [name]))
    (apart : paths.Pairwise fun p q => ∀ spot, Names t.item? p spot → ¬ Names t.item? q spot)
    (ready : ∀ p ∈ paths, Ready renamer t p) :
    ∃ w', Does (paths.forM (sweepFile renamer)) w () w' := by
  induction paths generalizing done w with
  | nil => exact ⟨w, does_pure.mpr ⟨rfl, rfl⟩⟩
  | cons p rest ih =>
    obtain ⟨folder, name, at_, fresh⟩ := files p List.mem_cons_self
    obtain ⟨short, short', allowed⟩ := ready p List.mem_cons_self
    rw [List.pairwise_cons] at apart
    obtain ⟨isNew, out, sweeps⟩ := allowed _ at_.names
    obtain ⟨content, there⟩ := at_.file
    obtain ⟨v, first⟩ := exists_sweepFile (swept.fileAt at_ fresh) short short'
      ((swept.elsewhere _ fresh).trans there) (at_.kind_eq.symm ▸ sweeps.sweeps there)
    have remain := fresh_of_apart at_ (fun q mem => files q (List.mem_cons_of_mem _ mem)) apart.1
    obtain ⟨w', later⟩ := ih (swept.step at_ fresh first) remain apart.2
      fun q mem => ready q (List.mem_cons_of_mem _ mem)
    exact ⟨w', first.bind later⟩

/-- Two sweeps of the same files come to the same. -/
theorem item_eq {before' : Nat} {v : World} (swept : Swept renamer t done before w)
    (swept' : Swept renamer t done before' v) (other : Spot) :
    w.files.item? other = v.files.item? other := by
  by_cases yes : done other
  · obtain ⟨_, _, sweeps, there⟩ := swept.files other yes
    obtain ⟨_, _, sweeps', there'⟩ := swept'.files other yes
    rw [there, there', (sweeps.unique sweeps').2]
  · rw [swept.elsewhere other yes, swept'.elsewhere other yes]

end Swept

/-! ### All files below a root -/

/-- A file at or below a spot. -/
def FileBelow (t : FileTree) (spot other : Spot) : Prop :=
  spot <+: other ∧ ∃ content, t.item? other = some (.file content)

/-- Nothing lies where an archive at or below a spot is to be staged. -/
def StagingFree (t : FileTree) (spot : Spot) : Prop :=
  ∀ folder name, FileBelow t spot (folder ++ [name]) → Path.kind ⟨name⟩ = .archive →
    t.item? (folder ++ [name ++ stagingSuffix]) = none

/-- The paths of the files in a listing. -/
def filePaths (root : Path) (entries : List ListedItem) : List Path :=
  (entries.filter fun e => e.kind = .file).map (ListedItem.path root)

variable {item : Item} {entries : List ListedItem}

/-- A file below a folder is named by the path of the folder with the names behind it. -/
theorem fileAt_below (ordinary : t.Ordinary) (leads : Leads t.item? root.parts spot)
    (free : StagingFree t spot) {init : List String}
    (there : t.item? (spot ++ (init ++ [name])) = some (.file content)) :
    FileAt t (root.below (init ++ [name])) (spot ++ init) name := by
  have joined : spot ++ (init ++ [name]) = spot ++ init ++ [name] := (List.append_assoc ..).symm
  obtain ⟨above, named, -⟩ := ordinary (by rw [← joined, there]; rfl)
  have names : ∀ name ∈ init, IsName name := ordinary.isName (by rw [above]; rfl)
  have file : t.item? (spot ++ init ++ [name]) = some (.file content) := joined ▸ there
  refine ⟨⟨_, ?_, leads.below ordinary above⟩, ?_, ⟨content, file⟩, free _ _ ⟨?_, content, file⟩⟩
  · rw [Path.below_concat, Path.parts_join named, Path.parts_below names]
  · rw [Path.below_concat]
    exact Path.closing_join named
  · rw [List.append_assoc]
    exact List.prefix_append _ _

/-- What a listing finds: each file at or below the root, under one path. -/
structure FindsFiles (t : FileTree) (spot : Spot) (paths : List Path) : Prop where
  files : ∀ p ∈ paths, ∃ folder name, FileAt t p folder name
  apart : paths.Pairwise fun p q => ∀ spot, Names t.item? p spot → ¬ Names t.item? q spot
  named : ∀ other, (∃ p ∈ paths, Names t.item? p other) ↔ FileBelow t spot other

/-- The order of the paths does not matter. -/
theorem FindsFiles.perm {paths paths' : List Path} (finds : FindsFiles t spot paths)
    (perm : paths'.Perm paths) : FindsFiles t spot paths' where
  files p mem := finds.files p (perm.mem_iff.mp mem)
  apart := (perm.pairwise_iff fun no spot names names' => no spot names' names).mpr finds.apart
  named other := by simpa only [perm.mem_iff] using finds.named other

/-- The only file of a target that is a file is the target. -/
theorem findsFiles_of_file (ordinary : t.Ordinary)
    (found : t.find .entry root = .ok (spot, .file content)) (free : StagingFree t spot) :
    FindsFiles t spot [root] := by
  obtain ⟨parts, folder, name, split, leads, rfl, plain⟩ :=
    exists_names_of_find ordinary found (by simp)
  have there := (find_eq_ok.mp found).2
  have below : FileBelow t (folder ++ [name]) (folder ++ [name]) :=
    ⟨List.prefix_refl _, content, there⟩
  have at_ : FileAt t root folder name :=
    ⟨⟨parts, split, leads⟩, plain, ⟨content, there⟩, free folder name below⟩
  refine ⟨by simpa using ⟨folder, name, at_⟩, by simp, fun other => ?_⟩
  simp only [List.mem_singleton, exists_eq_left]
  constructor
  · intro names
    exact names.unique at_.names ▸ below
  · rintro ⟨inside, content', there'⟩
    -- Nothing lies below a file.
    by_cases same : other = folder ++ [name]
    · exact same ▸ at_.names
    · rw [ordinary.vacant_below (by simp [there]) inside same] at there'
      cases there'

/-- The paths of the files that are listed are those of the files below the root, in the same order.
-/
theorem filePaths_entriesBelow : filePaths root (t.entriesBelow spot) =
    ((t.itemsBelow spot).filter fun listed => listed.2.kind = .file).map
      fun listed => root.below (listed.1.drop spot.length) := by
  rw [filePaths, entriesBelow, List.filter_map, List.map_map]
  rfl

/-- A file that is listed below a folder is where its path names it. -/
theorem fileAt_of_listed (ordinary : t.Ordinary) (leads : Leads t.item? root.parts spot)
    (free : StagingFree t spot) {other : Spot}
    (listed : (other, item) ∈ (t.itemsBelow spot).filter fun listed => listed.2.kind = .file) :
    ∃ folder name, other = folder ++ [name] ∧
      FileAt t (root.below (other.drop spot.length)) folder name := by
  obtain ⟨mem, file⟩ := List.mem_filter.mp listed
  obtain ⟨⟨⟨names, rfl⟩, ne⟩, there⟩ := mem_itemsBelow.mp mem
  obtain ⟨init, last, rfl⟩ := (List.eq_nil_or_concat names).resolve_left (by
    rintro rfl
    exact ne (List.append_nil _))
  rw [List.concat_eq_append] at *
  cases item with
  | folder => cases of_decide_eq_true file
  | link target => cases of_decide_eq_true file
  | file content =>
    rw [List.drop_left]
    exact ⟨spot ++ init, last, (List.append_assoc ..).symm, fileAt_below ordinary leads free there⟩

/-- A sweep of a folder finds all files below it. -/
theorem findsFiles_of_folder (ordinary : t.Ordinary)
    (found : t.find .content root = .ok (spot, .folder)) (free : StagingFree t spot) :
    FindsFiles t spot (filePaths root (t.entriesBelow spot)) := by
  have top := (find_eq_ok.mp found).2
  have leads := leads_of_find found
  rw [filePaths_entriesBelow]
  refine ⟨fun p mem => ?_, ?_, fun other => ?_⟩
  · obtain ⟨⟨other, item⟩, inside, rfl⟩ := List.mem_map.mp mem
    obtain ⟨folder, name, -, at_⟩ := fileAt_of_listed ordinary leads free inside
    exact ⟨folder, name, at_⟩
  · rw [List.pairwise_map]
    refine (itemsBelow_apart.filter _).imp_of_mem fun {a b} mem mem' ne spot names names' => ne ?_
    obtain ⟨folder, name, same, at_⟩ := fileAt_of_listed ordinary leads free mem
    obtain ⟨folder', name', same', at'⟩ := fileAt_of_listed ordinary leads free mem'
    rw [same, same', ← names.unique at_.names, ← names'.unique at'.names]
  · constructor
    · rintro ⟨p, mem, names⟩
      obtain ⟨⟨other', item⟩, inside, rfl⟩ := List.mem_map.mp mem
      obtain ⟨folder, name, rfl, at_⟩ := fileAt_of_listed ordinary leads free inside
      obtain rfl := names.unique at_.names
      exact ⟨(mem_itemsBelow.mp (List.mem_filter.mp inside).1).1.1, at_.file⟩
    · rintro ⟨inside, content, there⟩
      have ne : other ≠ spot := by
        rintro rfl
        cases top.symm.trans there
      have mem : (other, Item.file content) ∈ (t.itemsBelow spot).filter
          fun listed => listed.2.kind = .file :=
        List.mem_filter.mpr ⟨mem_itemsBelow.mpr ⟨⟨inside, ne⟩, there⟩, decide_eq_true rfl⟩
      obtain ⟨folder, name, rfl, at_⟩ := fileAt_of_listed ordinary leads free mem
      exact ⟨_, List.mem_map.mpr ⟨_, mem, rfl⟩, at_.names⟩

/-- **A listing finds every file**, whatever its root is but a link. -/
theorem findsFiles_of_listing (ordinary : t.Ordinary)
    (found : t.find .entry root = .ok (spot, item)) (no_link : ∀ target, item ≠ .link target)
    (free : StagingFree t spot) (listed : t.listing root = .ok entries) :
    FindsFiles t spot (filePaths root entries) := by
  rcases listing_cases found no_link listed with ⟨⟨content, rfl⟩, rfl⟩ | ⟨rfl, rfl⟩
  · exact findsFiles_of_file ordinary found free
  · exact findsFiles_of_folder ordinary (find_content_of_entry found no_link) free

/-- All files that were found are swept. -/
theorem FindsFiles.swept {paths : List Path} (finds : FindsFiles w.files spot paths)
    (does : Does (paths.forM (sweepFile renamer)) w () w') :
    Swept renamer w.files (FileBelow w.files spot) w.progress.tally.classesRenamed w' := by
  have all := Swept.start.forM (fun p mem => ?_) finds.apart does
  · simpa only [false_or, finds.named] using all
  · obtain ⟨folder, name, at_⟩ := finds.files p mem
    exact ⟨folder, name, at_, id⟩

/-! ### How a sweep ends -/

/-- A sweep lists the files when it begins, and then takes them one by one. -/
theorem does_sweep {tally : Tally} (does : Does (sweep renamer root) w tally w') :
    ∃ entries v, w.files.listing root = .ok entries ∧ v.files = w.files ∧
      v.progress.tally = .zero ∧
      Does ((filePaths root entries).forM (sweepFile renamer)) v () w' ∧
      tally = w'.progress.tally := by
  simp only [sweep, filesUnder, listNow, does_bind, does_onFiles, does_get, does_demand,
    does_countNow, does_pure] at does
  obtain ⟨_, _, ⟨_, v, told, entries, _, ⟨_, ⟨_, _, ⟨rfl, rfl⟩, listed, rfl⟩, rfl⟩, rfl, rfl⟩,
    _, _, rfl, _, _, sweeps, _, _, ⟨rfl, rfl⟩, rfl, rfl⟩ := does
  have same := does_tellListing told
  exact ⟨entries, { v with progress := v.progress.count fun _ => .zero }, same ▸ listed, same.symm,
    rfl, sweeps, rfl⟩

/-- The files that are listed are the files to be swept. -/
theorem exists_filesUnder (listed : w.files.listing root = .ok entries) :
    ∃ v, v.files = w.files ∧ Does (filesUnder root) w (filePaths root entries) v := by
  obtain ⟨v, told⟩ := exists_tellListing w
  have same := does_tellListing told
  have lists : Does (onFiles (listNow root)) v entries v :=
    does_onFiles.mpr ⟨v.files, by simp [listNow, ← same, listed], rfl⟩
  exact ⟨v, same.symm, told.bind (lists.bind (does_pure.mpr ⟨rfl, rfl⟩))⟩

/-- A sweep goes well if the root can be listed, and all files that are found can be swept. -/
theorem exists_sweep (listed : w.files.listing root = .ok entries)
    (finds : FindsFiles w.files spot (filePaths root entries))
    (ready : ∀ p ∈ filePaths root entries, Ready renamer w.files p) :
    ∃ tally w', Does (sweep renamer root) w tally w' := by
  obtain ⟨v, same, found⟩ := exists_filesUnder listed
  let start : World := { v with progress := v.progress.count fun _ => .zero }
  have begun : Swept renamer start.files (fun _ => False) start.progress.tally.classesRenamed
    start := .start
  rw [show start.files = w.files from same] at begun
  obtain ⟨w', sweeps⟩ := begun.exists_forM (fun p mem => by
    obtain ⟨folder, name, at_⟩ := finds.files p mem
    exact ⟨folder, name, at_, id⟩) finds.apart ready
  exact ⟨_, w', found.bind (Does.countNow.bind (sweeps.bind
    ((does_get.mpr ⟨rfl, rfl⟩).bind (does_pure.mpr ⟨rfl, rfl⟩))))⟩

/-- What a sweep did that went well. -/
theorem swept_of_sweep {tally : Tally} (ordinary : w.files.Ordinary)
    (found : w.files.find .entry root = .ok (spot, item))
    (no_link : ∀ target, item ≠ .link target) (free : StagingFree w.files spot)
    (does : Does (sweep renamer root) w tally w') :
    Swept renamer w.files (FileBelow w.files spot) 0 w' ∧
      (tally.changed = true ↔
        ∃ other out, FileBelow w.files spot other ∧ SweepsAt renamer w.files other true out) := by
  obtain ⟨entries, v, listed, files, none_yet, sweeps, rfl⟩ := does_sweep does
  have finds := findsFiles_of_listing ordinary found no_link free listed
  have swept := (files.symm ▸ finds).swept sweeps
  rw [files, none_yet] at swept
  exact ⟨swept, decide_eq_true_iff.trans swept.counted⟩

/-- How a sweep ends that goes well, on a root that leads to a spot. -/
structure SweepEnd (renamer : Renamer) (root : Path) (t : FileTree) (spot : Spot) (tally : Tally)
    (u : FileTree) : Prop where
  /-- Nothing came to lie where nothing lay, so no staging file remains; and all folders, links and
  files elsewhere are as they were. -/
  kept : ∀ other, ¬ FileBelow t spot other → u.item? other = t.item? other
  /-- Every file has the content that its name and its old content tell. -/
  files : ∀ folder name content, spot <+: folder ++ [name] →
    t.item? (folder ++ [name]) = some (.file content) → ∃ isNew out,
      u.item? (folder ++ [name]) = some (.file out) ∧
        ∀ isNew' out', Sweeps renamer (Path.kind ⟨name⟩) content isNew' out' ↔
          isNew' = isNew ∧ out' = out
  /-- The counters tell if a file was given a new content. -/
  changed : tally.changed = true ↔ ∃ folder name content out, spot <+: folder ++ [name] ∧
    t.item? (folder ++ [name]) = some (.file content) ∧
      Sweeps renamer (Path.kind ⟨name⟩) content true out
  /-- If they tell of none, all is as it was. -/
  same_of_unchanged : tally.changed = false → ∀ other, u.item? other = t.item? other
  /-- If all is as it was, they tell of none, unless an archive seems to be large. -/
  unchanged_of_same : (∀ other, u.item? other = t.item? other) →
    (∀ folder name content a b, spot <+: folder ++ [name] →
      t.item? (folder ++ [name]) = some (.file content) → Path.kind ⟨name⟩ = .archive →
      Archive.ofBytes content = .ok a → Within a b → ¬ SeemsLarge b.bytes) →
    tally.changed = false
  /-- In any other order the files would have come to the same. -/
  any_order : ∀ entries (paths : List Path) (v v' : World), t.listing root = .ok entries →
    paths.Perm (filePaths root entries) → v.files = t →
    Does (paths.forM (sweepFile renamer)) v () v' → ∀ other, v'.files.item? other = u.item? other

/-- **Every sweep that goes well gives each file below its root the content that the file alone
tells**, and counts a renamed class if and only if one of these contents is new.  The root is a file
or a folder, and nothing lies where an archive is to be staged. -/
theorem sweep_maps_files {tally : Tally} (ordinary : w.files.Ordinary)
    (found : w.files.find .entry root = .ok (spot, item))
    (no_link : ∀ target, item ≠ .link target) (free : StagingFree w.files spot)
    (does : Does (sweep renamer root) w tally w') :
    SweepEnd renamer root w.files spot tally w'.files := by
  obtain ⟨swept, changed⟩ := swept_of_sweep ordinary found no_link free does
  refine ⟨swept.elsewhere, ?_, ?_, ?_, ?_, ?_⟩
  · intro folder name content inside there
    obtain ⟨isNew, out, sweeps, now⟩ := swept.files _ ⟨inside, content, there⟩
    have at_ : ∀ {isNew' out'}, Sweeps renamer (Path.kind ⟨name⟩) content isNew' out' →
        SweepsAt renamer w.files (folder ++ [name]) isNew' out' :=
      fun sweeps' => ⟨_, _, _, rfl, there, sweeps'⟩
    refine ⟨isNew, out, now, fun isNew' out' => ⟨fun sweeps' => (at_ sweeps').unique sweeps, ?_⟩⟩
    rintro ⟨rfl, rfl⟩
    obtain ⟨folder', name', content', same, there', sweeps⟩ := sweeps
    obtain ⟨rfl, last⟩ := List.append_inj' same rfl
    cases last
    cases there.symm.trans there'
    exact sweeps
  · rw [changed]
    constructor
    · rintro ⟨_, out, ⟨inside, -⟩, folder, name, content, rfl, there, sweeps⟩
      exact ⟨folder, name, content, out, inside, there, sweeps⟩
    · rintro ⟨folder, name, content, out, inside, there, sweeps⟩
      exact ⟨_, out, ⟨inside, content, there⟩, folder, name, content, rfl, there, sweeps⟩
  · intro unchanged other
    by_cases below : FileBelow w.files spot other
    · obtain ⟨isNew, out, sweeps, now⟩ := swept.files other below
      cases isNew with
      | true => cases unchanged.symm.trans (changed.mpr ⟨other, out, below, sweeps⟩)
      | false =>
        obtain ⟨folder, name, content, -, there, sweeps⟩ := sweeps
        rw [now, there, sweeps.eq_of_old]
    · exact swept.elsewhere other below
  · intro same unambiguous
    rw [← Bool.not_eq_true, changed]
    rintro ⟨other, out, below, sweeps⟩
    obtain ⟨isNew, out', sweeps', now⟩ := swept.files other below
    obtain ⟨rfl, rfl⟩ := sweeps.unique sweeps'
    obtain ⟨folder, name, content, rfl, there, sweeps⟩ := sweeps
    refine sweeps.ne_of_new (fun kind a b opened within =>
      unambiguous folder name content a b below.1 there kind opened within) ?_
    have both := now.symm.trans ((same _).trans there)
    exact Item.file.inj (Option.some.inj both)
  · rintro entries paths v v' listed perm files sweeps
    have finds := findsFiles_of_listing ordinary found no_link free listed
    have swept' := (files ▸ finds.perm perm).swept sweeps
    rw [files] at swept'
    exact fun other => swept'.item_eq swept other

namespace MixedFolder

/-- A folder with a class, a text, an archive and a link. -/
def tree : FileTree :=
  ((((FileTree.empty.put ["w"] .folder).put ["w", "a.class"]
    (.file (ofOctets OneDetail.before.toBytes))).put ["w", "b"] (.file ⟨#[120]⟩)).put
      ["w", "c.jar"] (.file Boxed.outer.bytes)).put ["w", "d"] (.link ⟨"a.class"⟩)

def world : World := .ofFiles ⟨"/"⟩ tree

/-- What the folder is listed as. -/
def contents : List ListedItem :=
  [⟨[], .folder⟩, ⟨["a.class"], .file⟩, ⟨["b"], .file⟩, ⟨["c.jar"], .file⟩, ⟨["d"], .link⟩]

theorem found_and_listed : tree.find .entry ⟨"w"⟩ = .ok (["w"], .folder) ∧
    tree.listing ⟨"w"⟩ = .ok contents := by
  decide

theorem isName_sample {name : String} (mem : name ∈ ["w", "a.class", "b", "c.jar", "d"]) :
    IsName name := by
  simp only [List.mem_cons, List.not_mem_nil, or_false] at mem
  rcases mem with rfl | rfl | rfl | rfl | rfl <;> constructor <;> decide

theorem ordinary_tree : tree.Ordinary := by
  have folder : (FileTree.empty.put ([] ++ ["w"]) .folder).Ordinary :=
    ordinary_empty.put item?_root (isName_sample (by decide)) (by decide) (by decide)
  have added {t : FileTree} {item : Item} (name : String) (ordinary : t.Ordinary)
      (mem : name ∈ ["w", "a.class", "b", "c.jar", "d"]) (size : name.utf8ByteSize ≤ nameLimit)
      (top : t.item? ["w"] = some .folder) (vacant : t.item? ["w", name] = none) :
      (t.put ["w", name] item).Ordinary := by
    exact ordinary.put top (isName_sample mem) size vacant
  refine added "d" (added "c.jar" (added "b" (added "a.class" folder ?_ ?_ ?_ ?_) ?_ ?_ ?_ ?_)
    ?_ ?_ ?_ ?_) ?_ ?_ ?_ ?_ <;> decide

theorem item_tree (other : Spot) : tree.item? other =
    if other = ["w", "d"] then some (.link ⟨"a.class"⟩)
    else if other = ["w", "c.jar"] then some (.file Boxed.outer.bytes)
    else if other = ["w", "b"] then some (.file ⟨#[120]⟩)
    else if other = ["w", "a.class"] then some (.file (ofOctets OneDetail.before.toBytes))
    else if other = ["w"] then some .folder
    else if other = [] then some .folder else none := by
  unfold tree
  rw [item?_put (by simp), item?_put (by simp), item?_put (by simp), item?_put (by simp),
    item?_put (by simp), item?_empty]

/-- The tree has three files. -/
theorem file_cases {other : Spot} {content : ByteArray}
    (there : tree.item? other = some (.file content)) :
    other = ["w"] ++ ["c.jar"] ∧ content = Boxed.outer.bytes ∨
    other = ["w"] ++ ["b"] ∧ content = ⟨#[120]⟩ ∨
    other = ["w"] ++ ["a.class"] ∧ content = ofOctets OneDetail.before.toBytes := by
  rw [item_tree] at there
  split at there
  case isTrue => cases there
  split at there
  case isTrue same => exact .inl ⟨same, by cases there; rfl⟩
  split at there
  case isTrue same => exact .inr (.inl ⟨same, by cases there; rfl⟩)
  split at there
  case isTrue same => exact .inr (.inr ⟨same, by cases there; rfl⟩)
  split at there
  case isTrue => cases there
  split at there <;> cases there

/-- Nothing lies where the archive is to be staged. -/
theorem free : StagingFree tree ["w"] := by
  rintro folder name ⟨-, content, there⟩ kind
  rcases file_cases there with ⟨same, -⟩ | ⟨same, -⟩ | ⟨same, -⟩
  all_goals
    obtain ⟨rfl, last⟩ := List.append_inj' same rfl
    cases last
  · decide
  · exact absurd kind (by decide)
  · exact absurd kind (by decide)

/-- The class is renamed. -/
theorem sweeps_class : Sweeps OneDetail.renamer (Path.kind ⟨"a.class"⟩)
    (ofOctets OneDetail.before.toBytes) true (ofOctets OneDetail.after.toBytes) := by
  rw [show Path.kind ⟨"a.class"⟩ = .classFile by decide]
  exact .renamedClass OneDetail.renameClass_before

/-- The archive is rebuilt with the class in it. -/
theorem sweeps_archive : Sweeps OneDetail.renamer (Path.kind ⟨"c.jar"⟩) Boxed.outer.bytes true
    (encode Boxed.rebuiltOuter.entries) := by
  have levels : nestingLimit = 0xFFFFFFFE + 2 := rfl
  have rebuilds := Boxed.rebuilds_outer 0xFFFFFFFE
  rw [← levels] at rebuilds
  rw [show Path.kind ⟨"c.jar"⟩ = .archive by decide]
  exact .rebuiltArchive (ofBytes_encode Boxed.plain_outer) (rebuildsTo_iff.mpr rebuilds) rfl

/-- The text stays. -/
theorem sweeps_text : Sweeps OneDetail.renamer (Path.kind ⟨"b"⟩) ⟨#[120]⟩ false ⟨#[120]⟩ := by
  rw [show Path.kind ⟨"b"⟩ = .other by decide]
  exact .other

/-- Every file can be swept. -/
theorem sweeps_tree {spot : Spot} {content : ByteArray}
    (there : tree.item? spot = some (.file content)) :
    ∃ isNew out, SweepsAt OneDetail.renamer tree spot isNew out := by
  rcases file_cases there with ⟨rfl, rfl⟩ | ⟨rfl, rfl⟩ | ⟨rfl, rfl⟩
  · exact ⟨_, _, _, _, _, rfl, there, sweeps_archive⟩
  · exact ⟨_, _, _, _, _, rfl, there, sweeps_text⟩
  · exact ⟨_, _, _, _, _, rfl, there, sweeps_class⟩

/-- So the sweep changes two files of the folder and reports that it did. -/
theorem sweeps_mixed : ∃ tally w', Does (sweep OneDetail.renamer ⟨"w"⟩) world tally w' ∧
    tally.changed = true ∧ SweepEnd OneDetail.renamer ⟨"w"⟩ tree ["w"] tally w'.files := by
  obtain ⟨found, listed⟩ := found_and_listed
  have no_link : ∀ target, Item.folder ≠ .link target := by simp
  have finds := findsFiles_of_listing ordinary_tree found no_link free listed
  have short : ∀ p ∈ filePaths ⟨"w"⟩ contents, p.Short ∧ (stagingFile p).Short := by
    decide
  obtain ⟨tally, w', does⟩ : ∃ tally w', Does (sweep OneDetail.renamer ⟨"w"⟩) world tally w' := by
    refine exists_sweep listed finds fun p mem =>
      ⟨(short p mem).1, fun _ => (short p mem).2, fun spot names => ?_⟩
    obtain ⟨folder, name, at_⟩ := finds.files p mem
    obtain ⟨content, there⟩ := at_.file
    exact names.unique at_.names ▸ sweeps_tree there
  have ends := sweep_maps_files ordinary_tree found no_link free does
  have there : tree.item? (["w"] ++ ["a.class"]) =
      some (.file (ofOctets OneDetail.before.toBytes)) := by simp [item_tree]
  exact ⟨tally, w', does,
    ends.changed.mpr ⟨["w"], "a.class", _, _, by decide, there, sweeps_class⟩, ends⟩

end MixedFolder

namespace LoopedArchive

def tree : FileTree := FileTree.empty.put ["x.jar"] (.file SelfRebuilt.looped.bytes)

def world : World := .ofFiles ⟨"/"⟩ tree

theorem item_tree (other : Spot) : tree.item? other =
    if other = ["x.jar"] then some (.file SelfRebuilt.looped.bytes)
    else if other = [] then some .folder else none := by
  unfold tree
  rw [item?_put (by simp), item?_empty]

theorem there : tree.item? ([] ++ ["x.jar"]) = some (.file SelfRebuilt.looped.bytes) := by
  simp [item_tree]

theorem ordinary_tree : tree.Ordinary := by
  have named : IsName "x.jar" := by constructor <;> decide
  have put : (FileTree.empty.put ([] ++ ["x.jar"]) (.file SelfRebuilt.looped.bytes)).Ordinary :=
    ordinary_empty.put item?_root named (by decide) (by simp [item?_empty])
  exact put

/-- Nothing lies beside the archive. -/
theorem free : StagingFree tree ["x.jar"] := by
  rintro folder name ⟨inside, content, there⟩ -
  obtain ⟨names, same⟩ := inside
  rw [item_tree] at there
  split at there
  case isTrue same =>
    have same : folder ++ [name] = [] ++ ["x.jar"] := same
    obtain ⟨rfl, last⟩ := List.append_inj' same rfl
    cases last
    simp [item_tree, stagingSuffix]
  case isFalse => split at there <;> cases there

theorem find_tree : tree.find .entry ⟨"x.jar"⟩ =
    .ok (["x.jar"], .file SelfRebuilt.looped.bytes) := by
  have names : Names tree.item? ⟨"x.jar"⟩ ([] ++ ["x.jar"]) :=
    ⟨[], "x.jar", [], by decide, ⟨linkLimit, .done⟩, rfl⟩
  exact find_eq_ok.mpr ⟨names.resolve_plain (by decide) (by decide), there⟩

/-- The counters tell of a renamed class, though all is as it was. -/
theorem changed_though_same : tree.Ordinary ∧ StagingFree tree ["x.jar"] ∧
    tree.find .entry ⟨"x.jar"⟩ = .ok (["x.jar"], .file SelfRebuilt.looped.bytes) ∧
    ∃ tally w', Does (sweep OneDetail.renamer ⟨"x.jar"⟩) world tally w' ∧
      tally.changed = true ∧ ∀ other, w'.files.item? other = tree.item? other := by
  have no_link : ∀ target, Item.file SelfRebuilt.looped.bytes ≠ .link target := by simp
  have listed : tree.listing ⟨"x.jar"⟩ = .ok [⟨[], .file⟩] := by
    unfold listing isFile
    rw [find_content_of_entry find_tree no_link]
    rfl
  have finds := findsFiles_of_listing ordinary_tree find_tree no_link free listed
  have sweeps : SweepsAt OneDetail.renamer tree ["x.jar"] true SelfRebuilt.looped.bytes := by
    refine ⟨[], "x.jar", _, rfl, there, ?_⟩
    rw [show Path.kind ⟨"x.jar"⟩ = .archive by decide]
    exact .rebuiltArchive SelfRebuilt.opens (rebuildsTo_iff.mpr SelfRebuilt.rebuilds) rfl
  have only : ∀ other, FileBelow tree ["x.jar"] other → other = ["x.jar"] := by
    rintro other ⟨-, content, there⟩
    rw [item_tree] at there
    split at there
    case isTrue same => exact same
    case isFalse => split at there <;> cases there
  obtain ⟨tally, w', does⟩ :
      ∃ tally w', Does (sweep OneDetail.renamer ⟨"x.jar"⟩) world tally w' := by
    have short : ∀ p ∈ filePaths ⟨"x.jar"⟩ [⟨[], .file⟩], p.Short ∧ (stagingFile p).Short := by
      decide
    refine exists_sweep listed finds fun p mem =>
      ⟨(short p mem).1, fun _ => (short p mem).2, fun spot names => ?_⟩
    obtain rfl := only spot ((finds.named spot).mp ⟨p, mem, names⟩)
    exact ⟨_, _, sweeps⟩
  obtain ⟨swept, changed⟩ := swept_of_sweep ordinary_tree find_tree no_link free does
  have below : FileBelow tree ["x.jar"] ["x.jar"] := ⟨List.prefix_refl _, _, there⟩
  refine ⟨ordinary_tree, free, find_tree, tally, w', does,
    changed.mpr ⟨["x.jar"], _, below, sweeps⟩, fun other => ?_⟩
  by_cases inside : FileBelow tree ["x.jar"] other
  · obtain rfl := only other inside
    obtain ⟨isNew, out, sweeps', now⟩ := swept.files _ below
    rw [now, ← (sweeps.unique sweeps').2]
    exact there.symm
  · exact swept.elsewhere other inside

end LoopedArchive

end ClassNaming
