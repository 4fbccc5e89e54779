import ClassNaming.Proofs.Run.StoppedSweep

/-!
# Where a sweep stops

A sweep that is not stopped by the operating system is stopped by a content.  The files are swept in
the order of the listing, so the files before that content were swept, and it and all files behind
it are as they were.  The failure is that of the content: it names the class or the archive, and the
entry in it, at any depth.

This holds whatever the root is, also where it leads to its file or folder through links.

## Main Definitions

* `Unstaged` - no staging file lies anywhere
* `LeadsToFile` - the file that a path leads to
* `StopsAt` - a sweep that was stopped by the content of a file

## Main Results

* `filePaths_cases` - what is to be swept, by what the root leads to
* `sweep_stops_at` - every sweep that a content stopped
* `exists_sweep_refused` - a content that is refused stops a sweep
-/

namespace ClassNaming

open FileTree Archive

variable {renamer : Renamer} {w w' : World} {t u : FileTree} {p root : Path} {folder spot : Spot}
  {name : String} {content : ByteArray} {f : Failure} {entries : List ListedItem}

/-- Nothing has the name of a staging file. -/
def Unstaged (t : FileTree) : Prop :=
  ∀ folder name, t.item? (folder ++ [name ++ stagingSuffix]) = none

/-- A path leads to a file at a spot, through all links. -/
def LeadsToFile (t : FileTree) (p : Path) (spot : Spot) (content : ByteArray) : Prop :=
  t.resolveFrom .content (linkLimit + 1) [] p.steps = .ok spot ∧
    t.item? spot = some (.file content)

/-- A sweep was stopped by the content of a file, between other ones. -/
structure StopsAt (renamer : Renamer) (root : Path) (t : FileTree) (before : List Path)
    (stop : Path) (after : List Path) (f : Failure) (u : FileTree) : Prop where
  /-- The files are swept in the order of the listing. -/
  listed : ∃ entries, t.listing root = .ok entries ∧
    filePaths root entries = before ++ stop :: after
  /-- Every file before the stop has the content that a sweep gives it that goes well: its name and
  its old content tell it. -/
  done : ∀ p ∈ before, ∃ spot content isNew out, LeadsToFile t p spot content ∧
    u.item? spot = some (.file out) ∧ ∀ isNew' out',
      Sweeps renamer p.kind content isNew' out' ↔ isNew' = isNew ∧ out' = out
  /-- The content of the file at the stop does not become anything, and the failure tells why. -/
  refused : ∃ spot content, LeadsToFile t stop spot content ∧
    (∀ isNew out, ¬ Sweeps renamer stop.kind content isNew out) ∧
    ∀ f', RefusesFile renamer stop.text stop.kind content f' ↔ f' = f
  /-- That file and the files behind it are as they were. -/
  kept : ∀ p ∈ stop :: after, ∃ spot content, LeadsToFile t p spot content ∧
    u.item? spot = some (.file content)
  /-- So is everything else but the files before the stop. -/
  elsewhere : ∀ spot, u.item? spot = t.item? spot ∨ ∃ p ∈ before, ∃ content,
    LeadsToFile t p spot content
  /-- No staging file lies anywhere. -/
  unstaged : Unstaged u

/-! ### What is to be swept -/

/-- What a path leads to that can be opened. -/
theorem leadsToFile_of_find (found : t.find .content p = .ok (spot, .file content)) :
    LeadsToFile t p spot content := by
  obtain ⟨resolved, there⟩ := find_eq_ok.mp found
  exact ⟨(resolve_eq_ok.mp resolved).2, there⟩

/-- A path leads to the file that it names. -/
theorem FileAt.leads (ordinary : t.Ordinary) (at_ : FileAt t p folder name)
    (there : t.item? (folder ++ [name]) = some (.file content)) :
    LeadsToFile t p (folder ++ [name]) content := by
  obtain ⟨parts, split, -⟩ := at_.split
  obtain ⟨-, -, size⟩ := ordinary (by rw [there]; rfl)
  obtain ⟨links, folder', name', same, ends, follows⟩ := at_.names.resolveFrom
  obtain ⟨rfl, last⟩ := List.append_inj' same rfl
  cases last
  refine ⟨?_, there⟩
  rw [follows, at_.plain, resolveFrom_name (by simp), if_neg (Nat.not_lt.mpr size), there]
  rfl

/-- A root leads to a file, to a folder, or to nothing that is swept. -/
theorem filePaths_cases (listed : t.listing root = .ok entries) :
    (∃ spot content, t.find .content root = .ok (spot, .file content) ∧
      filePaths root entries = [root]) ∨
    (∃ spot, t.find .content root = .ok (spot, .folder) ∧
      filePaths root entries = filePaths root (t.entriesBelow spot)) ∨
    filePaths root entries = [] := by
  unfold listing at listed
  split at listed
  case isTrue file =>
    cases listed
    unfold isFile at file
    split at file
    case h_1 spot content found => exact .inl ⟨spot, content, found, rfl⟩
    case h_2 => cases file
  case isFalse no_file =>
    -- A root that is no file is not listed as one.
    have other {s : Spot} {item : Item} (found : t.find .entry root = .ok (s, item)) :
        item.kind ≠ .file := by
      cases item with
      | file content =>
        refine absurd ?_ no_file
        unfold isFile
        rw [find_content_of_entry found (by simp)]
      | folder => simp [Item.kind]
      | link target => simp [Item.kind]
    split at listed
    case h_1 => cases listed
    case h_2 => cases listed
    case h_3 spot found found_content =>
      dsimp only at listed
      split at listed
      case h_1 => cases listed
      case h_2 =>
        cases listed
        refine .inr (.inl ⟨spot, found_content, ?_⟩)
        simp [filePaths, other found]
    case h_4 _ found _ =>
      cases listed
      exact .inr (.inr (by simp [filePaths, other found]))

/-- So no staging file is taken below any root. -/
theorem Unstaged.stagingFree (unstaged : Unstaged t) : StagingFree t spot :=
  fun folder name _ _ => unstaged folder name

/-- No staging file comes to lie where no file was. -/
theorem Unstaged.of_elsewhere (unstaged : Unstaged t) (elsewhere : ∀ spot,
    u.item? spot = t.item? spot ∨ ∃ content, t.item? spot = some (.file content)) :
    Unstaged u := by
  intro folder name
  rcases elsewhere (folder ++ [name ++ stagingSuffix]) with same | ⟨content, there⟩
  · rw [same, unstaged]
  · cases (unstaged folder name).symm.trans there

/-! ### Stops -/

/-- A file is refused with one failure only. -/
theorem RefusesFile.iff_eq {place : String} {kind : FileKind}
    (refuses : RefusesFile renamer place kind content f) (f' : Failure) :
    RefusesFile renamer place kind content f' ↔ f' = f :=
  ⟨fun refuses' => refuses'.unique refuses, fun same => same ▸ refuses⟩

/-- A root that leads to a file is all that is swept, and stays as it was. -/
theorem stopsAt_of_file (ordinary : w.files.Ordinary) (unstaged : Unstaged w.files)
    (found : w.files.find .content root = .ok (spot, .file content))
    (listed : w.files.listing root = .ok entries) (paths : filePaths root entries = [root])
    (fails : Fails (sweepFile renamer root) w f w') (no_system : f.isOfSystem = false) :
    StopsAt renamer root w.files [] root [] f w'.files := by
  obtain ⟨parts, folder, name, split, leads, plain⟩ :=
    exists_parts_of_find ordinary (by simp) found (by simp)
  have staging := stagingAt_of_parts split leads plain (unstaged folder name)
  obtain ⟨⟨content', read, refuses⟩, same⟩ :=
    sweepFile_refused (fun _ => ⟨_, staging⟩) fails no_system
  obtain ⟨⟨s, found'⟩, -⟩ := does_readFile.mp read
  cases found.symm.trans found'
  have leads := leadsToFile_of_find found
  refine ⟨⟨entries, listed, paths⟩, by simp, ⟨spot, content, leads,
    fun _ _ => refuses.not_sweeps, refuses.iff_eq⟩, ?_, fun other => .inl (same other),
    unstaged.of_elsewhere fun other => .inl (same other)⟩
  intro p mem
  obtain rfl := List.mem_singleton.mp mem
  exact ⟨spot, content, leads, (same spot).trans leads.2⟩

/-- A file that was swept has the one content that its old content becomes. -/
theorem Swept.exists_sweeps {done : Spot → Prop} {counted : Nat} (ordinary : t.Ordinary)
    (swept : Swept renamer t done counted w) (at_ : FileAt t p folder name)
    (yes : done (folder ++ [name])) : ∃ spot content isNew out, LeadsToFile t p spot content ∧
      w.files.item? spot = some (.file out) ∧ ∀ isNew' out',
        Sweeps renamer p.kind content isNew' out' ↔ isNew' = isNew ∧ out' = out := by
  obtain ⟨content, there⟩ := at_.file
  obtain ⟨isNew, out, sweepsAt, now⟩ := swept.files _ yes
  have sweeps := sweepsAt.sweeps there
  rw [← at_.kind_eq] at sweeps
  refine ⟨_, content, isNew, out, at_.leads ordinary there, now,
    fun isNew' out' => ⟨fun sweeps' => sweeps'.unique sweeps, ?_⟩⟩
  rintro ⟨rfl, rfl⟩
  exact sweeps

/-- What is not as it was after a sweep of some paths is a file that one of them leads to. -/
theorem Swept.same_or_leads {paths : List Path} {counted : Nat} (ordinary : t.Ordinary)
    (swept : Swept renamer t (fun spot => ∃ p ∈ paths, Names t.item? p spot) counted w)
    (files : ∀ p ∈ paths, ∃ folder name, FileAt t p folder name) (spot : Spot) :
    w.files.item? spot = t.item? spot ∨ ∃ p ∈ paths, ∃ content, LeadsToFile t p spot content := by
  by_cases yes : ∃ p ∈ paths, Names t.item? p spot
  · obtain ⟨p, mem, names⟩ := yes
    obtain ⟨folder, name, at_⟩ := files p mem
    obtain ⟨content, there⟩ := at_.file
    obtain rfl := names.unique at_.names
    exact .inr ⟨p, mem, content, at_.leads ordinary there⟩
  · exact .inl (swept.elsewhere spot yes)

/-- In a folder the files are swept up to the first whose content is refused. -/
theorem stopsAt_of_folder (ordinary : w.files.Ordinary) (unstaged : Unstaged w.files)
    (listed : w.files.listing root = .ok entries)
    (finds : FindsFiles w.files spot (filePaths root entries))
    (fails : Fails ((filePaths root entries).forM (sweepFile renamer)) w f w')
    (no_system : f.isOfSystem = false) :
    ∃ before stop after, StopsAt renamer root w.files before stop after f w'.files := by
  obtain ⟨before, stop, after, folder, name, v, split, swept, at_, at', stops⟩ :=
    Swept.start.fails_forM (fun p mem => by
      obtain ⟨folder, name, at_⟩ := finds.files p mem
      exact ⟨folder, name, at_, id⟩) finds.apart fails
  simp only [false_or] at swept
  obtain ⟨⟨content, read, refuses⟩, same⟩ := sweepFile_refused (fun kind =>
    ⟨_, at'.stagingAt (at_.kind_eq.symm.trans kind)⟩) stops no_system
  obtain ⟨files, apart, named⟩ := finds
  rw [split] at files apart
  obtain ⟨-, -, apart⟩ := List.pairwise_append.mp apart
  -- What lies behind the stop, it included, is not reached by a path before it.
  have kept : ∀ p ∈ stop :: after, ∀ {folder name}, FileAt w.files p folder name →
      v.files.item? (folder ++ [name]) = w.files.item? (folder ++ [name]) := by
    intro p mem folder name at_
    refine swept.elsewhere (folder ++ [name]) ?_
    rintro ⟨q, mem', names⟩
    exact apart q mem' p mem _ names at_.names
  have elsewhere : ∀ spot, w'.files.item? spot = w.files.item? spot ∨ ∃ p ∈ before, ∃ content,
      LeadsToFile w.files p spot content := fun spot => by
    rw [same]
    exact swept.same_or_leads ordinary (fun p mem => files p (List.mem_append_left _ mem)) spot
  refine ⟨before, stop, after, ⟨entries, listed, split⟩, fun p mem => ?_, ?_, fun p mem => ?_,
    elsewhere, unstaged.of_elsewhere fun spot => ?_⟩
  · obtain ⟨folder, name, at_⟩ := files p (List.mem_append_left _ mem)
    simpa only [same] using swept.exists_sweeps ordinary at_ ⟨p, mem, at_.names⟩
  · have there := readFile_names at'.names at'.no_link read
    rw [kept stop List.mem_cons_self at_] at there
    exact ⟨_, content, at_.leads ordinary there, fun _ _ => refuses.not_sweeps, refuses.iff_eq⟩
  · obtain ⟨folder, name, at_⟩ := files p (List.mem_append_right _ mem)
    obtain ⟨content, there⟩ := at_.file
    exact ⟨_, content, at_.leads ordinary there, by rw [same, kept p mem at_, there]⟩
  · exact (elsewhere spot).imp id fun ⟨p, _, content, leads⟩ => ⟨content, leads.2⟩

/-- **Where a sweep stops** that the operating system lets through.  The file at the stop is the
first in the order of the listing whose content is refused; all before it are done, and it and all
else are as they were. -/
theorem sweep_stops_at (ordinary : w.files.Ordinary) (unstaged : Unstaged w.files)
    (fails : Fails (sweep renamer root) w f w') (no_system : f.isOfSystem = false) :
    ∃ before stop after, StopsAt renamer root w.files before stop after f w'.files := by
  rcases fails_sweep fails with ⟨-, system⟩ | ⟨entries, v, listed, same, stops⟩
  · cases no_system.symm.trans system
  rw [← same] at ordinary unstaged listed ⊢
  rcases filePaths_cases listed with ⟨spot, content, found, paths⟩ | ⟨spot, found, paths⟩ | none
  · rw [paths] at stops
    rcases fails_bind.mp stops with stop | ⟨_, _, -, later⟩
    · exact ⟨[], root, [], stopsAt_of_file ordinary unstaged found listed paths stop no_system⟩
    · exact absurd later fails_pure
  · have finds := findsFiles_of_folder ordinary found unstaged.stagingFree
    rw [← paths] at finds
    exact stopsAt_of_folder ordinary unstaged listed finds stops no_system
  · rw [none] at stops
    exact absurd stops fails_pure

/-- A content that is refused stops the sweep, if the files before it can be swept and its path is
short enough. -/
theorem exists_sweep_refused {before after : List Path} {stop : Path}
    (listed : w.files.listing root = .ok entries)
    (finds : FindsFiles w.files spot (filePaths root entries))
    (split : filePaths root entries = before ++ stop :: after)
    (ready : ∀ p ∈ before, Ready renamer w.files p) (short : stop.Short)
    (short' : stop.kind = .archive → (stagingFile stop).Short)
    (refuses : ∀ spot content, Names w.files.item? stop spot →
      w.files.item? spot = some (.file content) →
      RefusesFile renamer stop.text stop.kind content f) :
    ∃ w', Fails (sweep renamer root) w f w' := by
  obtain ⟨v, u, folder, name, found, sweeps, at_, still, same⟩ :=
    exists_sweptUpTo listed finds split ready
  obtain ⟨content, there⟩ := at_.file
  obtain ⟨w', stops⟩ := exists_sweepFile_refused still short short' (same.trans there)
    (refuses _ content at_.names there)
  have stopped : Fails ((before ++ stop :: after).forM (sweepFile renamer)) _ f w' :=
    .forM sweeps stops
  rw [← split] at stopped
  exact ⟨w', found.bind_fails (Does.countNow.bind_fails stopped.bind)⟩

namespace SpoiledArchive

/-- An entry that is called a class but is none. -/
def spoiled : Packed := .renewed (Boxed.blank storedMethod) "B.class" (ofOctets [0])

/-- Where the local header of that entry starts. -/
def place : Nat := 0 + (Boxed.oldClass.localHeader.length + Boxed.oldClass.raw.size)

/-- An archive that holds a class to be renamed, and then the other entry. -/
def archive : Archive :=
  ⟨encode [Boxed.oldClass, spoiled], [Boxed.oldClass.header 0, spoiled.header place]⟩

/-- Why it cannot be rebuilt. -/
def failure (label : String) : Failure :=
  ⟨[.renameClass (label ++ "!/B.class")], .classFile (.unexpectedEnd 0 4)⟩

theorem fits_spoiled : spoiled.Fits := Packed.fits_renewed (by decide) (by decide)

/-- Both entries stay within what can be written. -/
theorem plain : Plain [Boxed.oldClass, spoiled] :=
  ⟨List.forall_mem_cons.mpr ⟨Boxed.fits_oldClass, List.forall_mem_singleton.mpr fits_spoiled⟩,
    by decide, by decide +kernel, by decide +kernel⟩

theorem lies_oldClass : Lies archive.bytes 0
    (Boxed.oldClass.localHeader ++ Boxed.oldClass.raw.data.toList) :=
  (lies_localOctets [Boxed.oldClass, spoiled]).left

/-- The spoiled class lies behind the sound one. -/
theorem lies_spoiled :
    Lies archive.bytes place (spoiled.localHeader ++ spoiled.raw.data.toList) := by
  have all := lies_localOctets [Boxed.oldClass, spoiled]
  rw [localOctets_cons] at all
  have behind := all.right
  rw [localOctets_cons, List.length_append, length_toList] at behind
  exact behind.left

/-- The first entry is rewritten, and the second one is refused. -/
theorem refuses (depth : Nat) (label : String) :
    RefusesArchive OneDetail.renamer (depth + 1) label archive (failure label) := by
  refine ⟨[Boxed.oldClass.header 0], spoiled.header place, [], [(true, Boxed.newClass)], rfl,
    .cons ?_ .nil, ?_⟩
  · have replaces : Replaces OneDetail.renamer (Rebuilds OneDetail.renamer depth) archive
        (Boxed.oldClass.header 0) (some (ofOctets OneDetail.after.toBytes)) :=
      .renamedClass (by decide) (content_renewed Boxed.fits_oldClass lies_oldClass)
        OneDetail.renameClass_before
    have name : (Boxed.oldClass.header 0).writtenName = "A.class" := by decide
    refine ⟨_, _, rawContent_of_lies Boxed.fits_oldClass lies_oldClass, replaces, ?_⟩
    rw [Header.packed, name, Boxed.newClass]
  · have name : (spoiled.header place).writtenName = "B.class" := by decide
    have verdict : renameClass OneDetail.renamer (ofOctets [0]).data.toList =
        some (.error (.unexpectedEnd 0 4)) := by rfl
    have refused : RefusesClass OneDetail.renamer archive (spoiled.header place)
        ((spoiled.header place).location label)
        ⟨[.renameClass ((spoiled.header place).location label)],
          .classFile (.unexpectedEnd 0 4)⟩ :=
      .verdict (content_renewed fits_spoiled lies_spoiled) verdict
    have told : (spoiled.header place).location label = label ++ "!/B.class" := by
      rw [Header.location, name, String.append_assoc]
      rfl
    refine .classFile (rawContent_of_lies fits_spoiled lies_spoiled) (by decide) ?_
    rw [told] at refused ⊢
    exact refused

/-- A folder with a class, the archive, and another class. -/
def tree : FileTree :=
  (((FileTree.empty.put ["w"] .folder).put ["w", "a.class"]
    (.file (ofOctets OneDetail.before.toBytes))).put ["w", "b.jar"] (.file archive.bytes)).put
      ["w", "c.class"] (.file (ofOctets OneDetail.before.toBytes))

def world : World := .ofFiles ⟨"/"⟩ tree

/-- What the folder is listed as. -/
def contents : List ListedItem :=
  [⟨[], .folder⟩, ⟨["a.class"], .file⟩, ⟨["b.jar"], .file⟩, ⟨["c.class"], .file⟩]

theorem found_and_listed : tree.find .content ⟨"w"⟩ = .ok (["w"], .folder) ∧
    tree.listing ⟨"w"⟩ = .ok contents := by
  decide

theorem item_tree (other : Spot) : tree.item? other =
    if other = ["w"] ++ ["c.class"] then some (.file (ofOctets OneDetail.before.toBytes))
    else if other = ["w"] ++ ["b.jar"] then some (.file archive.bytes)
    else if other = ["w"] ++ ["a.class"] then some (.file (ofOctets OneDetail.before.toBytes))
    else if other = [] ++ ["w"] then some .folder
    else if other = [] then some .folder else none := by
  unfold tree
  rw [item?_put (by simp), item?_put (by simp), item?_put (by simp), item?_put (by simp),
    item?_empty]
  rfl

theorem ordinary_tree : tree.Ordinary := by
  have folder : (FileTree.empty.put ([] ++ ["w"]) .folder).Ordinary :=
    ordinary_empty.put item?_root (by constructor <;> decide) (by decide) (by decide)
  have added {t : FileTree} {item : Item} (name : String) (ordinary : t.Ordinary)
      (named : IsName name) (size : name.utf8ByteSize ≤ nameLimit)
      (top : t.item? ["w"] = some .folder) (vacant : t.item? ["w", name] = none) :
      (t.put ["w", name] item).Ordinary := by
    exact ordinary.put top named size vacant
  refine added "c.class" (added "b.jar" (added "a.class" folder ⟨?_, ?_, ?_, ?_⟩ ?_ ?_ ?_)
    ⟨?_, ?_, ?_, ?_⟩ ?_ ?_ ?_) ⟨?_, ?_, ?_, ?_⟩ ?_ ?_ ?_ <;> decide

/-- No file there has the name of a staging file. -/
theorem unstaged_tree : Unstaged tree := by
  intro folder name
  have other (spot : Spot) (last : String) (no : ¬ stagingSuffix.toList <:+ last.toList) :
      folder ++ [name ++ stagingSuffix] ≠ spot ++ [last] := by
    intro same
    obtain ⟨-, last'⟩ := List.append_inj' same rfl
    cases last'
    exact no ⟨name.toList, (String.toList_append ..).symm⟩
  rw [item_tree, if_neg (other _ _ (by decide)), if_neg (other _ _ (by decide)),
    if_neg (other _ _ (by decide)), if_neg (other _ _ (by decide)), if_neg (by simp)]

/-- There are no links. -/
theorem no_link (other : Spot) (target : Path) : tree.item? other ≠ some (.link target) := by
  rw [item_tree]
  grind

/-- The spot that a path names is the one that it leads to. -/
theorem eq_of_names {p : Path} {spot goal : Spot} (names : Names tree.item? p spot)
    (leads : tree.resolve .content p = .ok goal) : goal = spot := by
  rcases names.resolve_cases (resolve_eq_ok.mp leads).2 with ⟨same, -⟩ | ⟨⟨target, linked⟩, -⟩
  · exact same
  · exact absurd linked (no_link _ _)

/-- The first class is renamed, then the archive is refused, and the other class is not reached. -/
theorem stopsAt_archive : tree.Ordinary ∧ Unstaged tree ∧
    (failure "w/b.jar").isOfSystem = false ∧
    ∃ w', Fails (sweep OneDetail.renamer ⟨"w"⟩) world (failure "w/b.jar") w' ∧
      ∃ before stop after,
        StopsAt OneDetail.renamer ⟨"w"⟩ tree before stop after (failure "w/b.jar") w'.files := by
  obtain ⟨found, listed⟩ := found_and_listed
  have finds : FindsFiles tree ["w"] (filePaths ⟨"w"⟩ contents) :=
    findsFiles_of_folder ordinary_tree found unstaged_tree.stagingFree
  have split : filePaths ⟨"w"⟩ contents = [⟨"w/a.class"⟩] ++ ⟨"w/b.jar"⟩ :: [⟨"w/c.class"⟩] := by
    decide
  obtain ⟨w', fails⟩ :
      ∃ w', Fails (sweep OneDetail.renamer ⟨"w"⟩) world (failure "w/b.jar") w' := by
    refine exists_sweep_refused listed finds split ?_ (by decide) (by decide) ?_
    · rintro p mem
      obtain rfl := List.mem_singleton.mp mem
      refine ⟨by decide, by decide, fun spot names => ?_⟩
      have leads : tree.resolve .content ⟨"w/a.class"⟩ = .ok ["w", "a.class"] := by decide
      obtain rfl := eq_of_names names leads
      have there : tree.item? ["w", "a.class"] =
          some (.file (ofOctets OneDetail.before.toBytes)) := by simp [item_tree]
      refine ⟨true, ofOctets OneDetail.after.toBytes, ["w"], "a.class", _, rfl, there, ?_⟩
      rw [show Path.kind ⟨"a.class"⟩ = .classFile by decide]
      exact .renamedClass OneDetail.renameClass_before
    · rintro spot content names there
      have leads : tree.resolve .content ⟨"w/b.jar"⟩ = .ok ["w", "b.jar"] := by decide
      obtain rfl := eq_of_names names leads
      have there : tree.item? ["w", "b.jar"] = some (.file content) := there
      obtain rfl : archive.bytes = content := by simpa [item_tree] using there
      have levels : nestingLimit = 0xFFFFFFFF + 1 := rfl
      rw [show Path.kind ⟨"w/b.jar"⟩ = .archive by decide]
      exact .entry (ofBytes_encode plain) (levels ▸ refuses 0xFFFFFFFF "w/b.jar")
  exact ⟨ordinary_tree, unstaged_tree, rfl, w', fails,
    sweep_stops_at ordinary_tree unstaged_tree fails rfl⟩

end SpoiledArchive

end ClassNaming
