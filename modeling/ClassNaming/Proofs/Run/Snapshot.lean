import ClassNaming.Proofs.Run.StoppedSweep
import ClassNaming.Proofs.Run.Transaction

/-!
# The snapshot is out of reach

A snapshot is of use if it holds all that the target leads to and lies where no change to the target
comes.  It does both if the path of the target ends with the name of a file or a folder.  So a sweep
of the target leaves the snapshot alone, however it ends, and the target can be taken back from it.

A target that is a link to a folder is swept by what it leads to, but its snapshot is another link
to the same folder.  And if the path of the target ends with two dots, the snapshot is made below
the very folder that the path leads to.  In these cases there is nothing to recover from.

## Main Definitions

* `SafeSnapshot` - a snapshot with all that a target leads to, apart from it

## Main Results

* `snapshot_is_safe` - the snapshot of a file or a folder that is named by its path
-/

namespace ClassNaming

open FileTree

variable {renamer : Renamer} {w before : World} {t u : FileTree} {target snapshot p q : Path}
  {parts : List PathPart} {folder spot copy other : Spot} {a b : String}

/-- When a snapshot was taken, the paths of the target and of the snapshot can be followed to the
folder that both are in. -/
theorem leads_of_taken (siblings : Siblings w.files target snapshot parts folder a b)
    (taken : Does (takeSnapshot target snapshot) w () before) :
    Leads before.files.item? parts folder ∧ target.Short ∧ snapshot.Short := by
  obtain ⟨u, removes, copies⟩ := does_takeSnapshot taken
  obtain ⟨leads, short, there, cleared, -, copied⟩ := copies_of_replaced siblings.ordinary
    siblings.leads siblings.target_parts siblings.snapshot_parts siblings.no_link removes copies
  have sub : Sub u.item? before.files.item? := by
    intro other item found
    rw [copied.elsewhere, found]
    intro inside
    rw [cleared, if_pos inside] at found
    cases found
  obtain ⟨item, found⟩ := find_of_copyTree ⟨parts, a, folder, siblings.target_parts, leads, rfl⟩
    (fun target linked => siblings.no_link target (cleared.sub linked)) copies
  obtain ⟨made, -⟩ := copyTree_copied (cleared.ordinary siblings.ordinary) found
    ⟨parts, b, folder, siblings.snapshot_parts, leads, rfl⟩ copies
  exact ⟨leads.mono sub, short, made.short⟩

/-- What a tree must be like, so that a snapshot is of use: the target leads to the spot that it led
to before, and the snapshot lies at a spot that is apart from that, and holds all that was there. -/
structure SafeSnapshot (t : FileTree) (target snapshot : Path) (spot copy : Spot)
    (u : FileTree) : Prop where
  led : ∃ item, t.find .content target = .ok (spot, item)
  leads : ∃ item, u.find .content target = .ok (spot, item)
  lies : ∃ item, u.find .entry snapshot = .ok (copy, item)
  holds : ∀ names, u.item? (copy ++ names) = t.item? (spot ++ names)
  apart : ∀ names names', spot ++ names ≠ copy ++ names'

/-- No change at or below the spot of the target alters the snapshot. -/
theorem SafeSnapshot.survives {v : FileTree} (safe : SafeSnapshot t target snapshot spot copy u)
    (elsewhere : ∀ other, ¬ spot <+: other → v.item? other = u.item? other)
    (names : List String) : v.item? (copy ++ names) = t.item? (spot ++ names) := by
  rw [elsewhere, safe.holds]
  rintro ⟨names', same⟩
  exact safe.apart names' names same

/-! ### Staging files -/

/-- The staging file of an archive does not lie where the snapshot of the archive is. -/
theorem staging_ne_snapshotName {name : String} (split : target.parts = parts ++ [.name name])
    (kind : Path.kind ⟨name⟩ = .archive) : name ++ stagingSuffix ≠ snapshotName false target := by
  have extension : target.extension? = some archiveExtension := by
    rw [← Path.kind_of_parts split, Path.kind] at kind
    split at kind
    case isTrue => cases kind
    split at kind
    case isTrue same => exact same
    case isFalse => cases kind
  intro same
  have last := congrArg (fun text : String => text.toList.getLast?) same
  simp [snapshotName, extension, stagingSuffix, archiveExtension] at last

/-- What lies under different names in a folder is apart. -/
theorem append_name_ne (apart : a ≠ b) (names names' : List String) :
    folder ++ [a] ++ names ≠ folder ++ [b] ++ names' :=
  fun same => not_below_of_ne apart names' ⟨names, same⟩

/-- A snapshot is in the way of no staging file. -/
theorem stagingFree_of_taken (at_ : TargetAt w.files target spot copy)
    (taken : Does (takeSnapshot target (snapshotPath w.files target)) w () before)
    (free : StagingFree w.files spot) : StagingFree before.files spot := by
  obtain ⟨parts, folder, a, b, siblings, rfl, rfl⟩ := at_.siblings
  obtain ⟨-, -, -, apart, -, copied⟩ := taken_of_does siblings taken
  rintro inner name ⟨inside, content, now⟩ kind
  have old : w.files.item? (inner ++ [name]) = some (.file content) := by
    rw [← copied.elsewhere, now]
    rintro ⟨names', same'⟩
    obtain ⟨names, same⟩ := inside
    exact append_name_ne apart names names' (same.trans same'.symm)
  have vacant := free inner name ⟨inside, content, old⟩ kind
  rw [copied.elsewhere, vacant]
  intro within
  rcases List.prefix_concat_iff.mp inside with same | above
  · -- The target is the archive.
    obtain ⟨rfl, last⟩ := List.append_inj' same rfl
    cases last
    have names : Names w.files.item? target (folder ++ [a]) :=
      ⟨parts, a, folder, siblings.target_parts, siblings.leads, rfl⟩
    have no_folder : w.files.isFolder target = false := by
      rw [← Bool.not_eq_true, isFolder_iff]
      rintro ⟨s, found⟩
      rcases names.find_cases found with ⟨-, there, -⟩ | ⟨⟨target, there⟩, -⟩
      · cases old.symm.trans there
      · cases old.symm.trans there
    obtain ⟨_, _, _, -, -, -, -, copy_eq⟩ := at_.beside
    obtain ⟨-, last⟩ := List.append_inj' copy_eq rfl
    rw [no_folder, List.singleton_inj] at last
    rw [List.prefix_append_right_inj, List.cons_prefix_cons] at within
    exact staging_ne_snapshotName siblings.target_parts kind (within.1.symm.trans last)
  · obtain ⟨names, same⟩ := above.trans (List.prefix_append inner [name ++ stagingSuffix])
    obtain ⟨names', same'⟩ := within
    exact append_name_ne apart names names' (same.trans same'.symm)

/-! ### The snapshot of what its path names -/

/-- When its snapshot was taken, what a path names is found as it was before. -/
theorem find_of_taken (there : w.files.exists? target = true)
    (siblings : Siblings w.files target snapshot parts folder a b)
    (taken : Does (takeSnapshot target snapshot) w () before) :
    ∃ item, (∀ target, item ≠ .link target) ∧
      w.files.find .content target = .ok (folder ++ [a], item) ∧
      ∀ aim, aim ≠ .writing → before.files.find aim target = .ok (folder ++ [a], item) := by
  obtain ⟨_, -, -, apart, -, copied⟩ := taken_of_does siblings taken
  obtain ⟨leads, short, -⟩ := leads_of_taken siblings taken
  have names : Names w.files.item? target (folder ++ [a]) :=
    ⟨parts, a, folder, siblings.target_parts, siblings.leads, rfl⟩
  have names' : Names before.files.item? target (folder ++ [a]) :=
    ⟨parts, a, folder, siblings.target_parts, leads, rfl⟩
  unfold exists? at there
  cases found : w.files.find .content target with
  | error e =>
    rw [found] at there
    cases there
  | ok result =>
    obtain ⟨s, item⟩ := result
    rcases names.find_cases found with ⟨rfl, old, asks⟩ | ⟨⟨target, linked⟩, -⟩
    swap
    · exact absurd linked (siblings.no_link target)
    have no_link : ∀ target, item ≠ .link target := by
      rintro target rfl
      exact siblings.no_link target old
    have now : before.files.item? (folder ++ [a]) = some item := by
      rw [copied.elsewhere, old]
      rintro ⟨names', same⟩
      exact append_name_ne apart [] names' (by rw [same, List.append_nil])
    exact ⟨item, no_link, rfl, fun aim reads => names'.find_eq short now no_link asks reads⟩

theorem safeSnapshot_of_taken (there : w.files.exists? target = true)
    (siblings : Siblings w.files target snapshot parts folder a b)
    (taken : Does (takeSnapshot target snapshot) w () before) :
    SafeSnapshot w.files target snapshot (folder ++ [a]) (folder ++ [b]) before.files := by
  obtain ⟨_, -, -, apart, -, copied⟩ := taken_of_does siblings taken
  obtain ⟨leads, -, short⟩ := leads_of_taken siblings taken
  obtain ⟨item, -, old, now⟩ := find_of_taken there siblings taken
  have names : Names before.files.item? snapshot (folder ++ [b]) :=
    ⟨parts, b, folder, siblings.snapshot_parts, leads, rfl⟩
  refine ⟨⟨item, old⟩, ⟨item, now _ (by simp)⟩, ⟨item, ?_⟩, copied.at_copy, append_name_ne apart⟩
  refine find_eq_ok.mpr ⟨names.resolve_plain siblings.plain short, copied.at_spot.trans ?_⟩
  exact (find_eq_ok.mp old).2

/-- **The snapshot of a file or a folder is out of reach.**  When it was taken, its path leads to a
copy of all that the target leads to, at a spot apart from that.  So the copy remains whatever is
done at or below the target, be it a sweep however it ends; and what was removed at the target is
there again once it was copied back. -/
theorem snapshot_is_safe (there : w.files.exists? target = true)
    (at_ : TargetAt w.files target spot copy)
    (taken : Does (takeSnapshot target (snapshotPath w.files target)) w () before) :
    SafeSnapshot w.files target (snapshotPath w.files target) spot copy before.files ∧
    (∀ v : FileTree, (∀ other, ¬ spot <+: other → v.item? other = before.files.item? other) →
      ∀ names, v.item? (copy ++ names) = w.files.item? (spot ++ names)) ∧
    (∀ renamer outcome w', StagingFree w.files spot →
      ending (sweep renamer target) before = some (outcome, w') →
      ∀ names, w'.files.item? (copy ++ names) = w.files.item? (spot ++ names)) ∧
    ∀ v x y : FileTree, v.Ordinary →
      (∀ other, ¬ spot <+: other → v.item? other = before.files.item? other) →
      (∃ item, v.find .entry (snapshotPath w.files target) = .ok (copy, item)) →
      Does (removeTree target) v () x →
      Does (copyTree (snapshotPath w.files target) target) x () y →
      ∀ names, y.item? (spot ++ names) = w.files.item? (spot ++ names) := by
  have free' := stagingFree_of_taken at_ taken
  obtain ⟨parts, folder, a, b, siblings, rfl, rfl⟩ := at_.siblings
  have safe := safeSnapshot_of_taken there siblings taken
  obtain ⟨_, -, -, apart, ordinary, -⟩ := taken_of_does siblings taken
  refine ⟨safe, fun v elsewhere => safe.survives elsewhere,
    fun renamer outcome w' free ends => ?_, ?_⟩
  · obtain ⟨item, no_link, -, now⟩ := find_of_taken there siblings taken
    have partly : PartlySwept renamer before.files (folder ++ [a]) w'.files :=
      partlySwept ordinary (now .entry (by simp)) no_link (free' free) ends
    exact safe.survives fun other outside => partly.elsewhere other fun below => outside below.1
  · rintro v x y ordinary' elsewhere ⟨item, lies⟩ removes copies names
    have held := safe.survives elsewhere
    have leads := (siblings.leads_of_resolve (find_eq_ok.mp lies).1).2
    have no_link : ∀ target, v.item? (folder ++ [b]) ≠ some (.link target) := by
      intro target
      have same := held []
      rw [List.append_nil, List.append_nil] at same
      rw [same]
      exact siblings.no_link target
    obtain ⟨-, -, -, gone, -, restored⟩ := copies_of_replaced ordinary' leads
      siblings.snapshot_parts siblings.target_parts no_link removes copies
    rw [restored.at_copy, gone, if_neg, held]
    rintro ⟨names', same⟩
    exact append_name_ne apart names' names same

/-- The snapshot of a folder holds the file in the folder, and keeps it. -/
theorem OneFolder.snapshot_survives : ∃ before,
    Does (takeSnapshot ⟨"w"⟩ (snapshotPath world.files ⟨"w"⟩)) world () before ∧
    before.files.item? (["w-backup"] ++ ["a"]) = some (.file ⟨#[120]⟩) ∧
    (before.files.drop ["w", "a"]).item? (["w-backup"] ++ ["a"]) = some (.file ⟨#[120]⟩) := by
  obtain ⟨_, before, taken, -⟩ := exists_of_done
    (takeSnapshot ⟨"w"⟩ (snapshotPath world.files ⟨"w"⟩)) world (fun _ => true) (by decide +kernel)
  have there : world.files.exists? ⟨"w"⟩ = true := by decide
  have at_ : TargetAt world.files ⟨"w"⟩ ["w"] ["w-backup"] := targetAt_folder
  obtain ⟨safe, survives, -⟩ := snapshot_is_safe there at_ taken
  have old : world.files.item? (["w"] ++ ["a"]) = some (.file ⟨#[120]⟩) := by decide
  refine ⟨before, taken, (safe.holds _).trans old, (survives _ ?_ _).trans old⟩
  intro other outside
  rw [item?_drop (by simp), if_neg]
  rintro rfl
  exact outside ⟨["a"], rfl⟩

namespace ReachedSnapshot

/-- A tree with a file in a folder, and a link to the folder. -/
def linked : FileTree := OneFolder.tree.put ["l"] (.link ⟨"w"⟩)

/-- A tree with a file and a folder in a folder. -/
def nested : FileTree := OneFolder.tree.put ["w", "x"] .folder

/-- The snapshot of a link is a link, and holds nothing. -/
theorem snapshot_of_link : ∃ before,
    Does (takeSnapshot ⟨"l"⟩ (snapshotPath linked ⟨"l"⟩)) (.ofFiles ⟨"/"⟩ linked) () before ∧
    ∀ spot copy,
      ¬ SafeSnapshot linked ⟨"l"⟩ (snapshotPath linked ⟨"l"⟩) spot copy before.files := by
  have led : linked.find .content ⟨"l"⟩ = .ok (["w"], .folder) := by decide
  obtain ⟨_, before, taken, lies⟩ := exists_of_done
    (takeSnapshot ⟨"l"⟩ (snapshotPath linked ⟨"l"⟩)) (.ofFiles ⟨"/"⟩ linked)
    (fun before => decide (before.files.find .entry (snapshotPath linked ⟨"l"⟩)
      = .ok (["l-backup"], .link ⟨"w"⟩))) (by decide)
  have lies := of_decide_eq_true lies
  refine ⟨before, taken, fun spot copy safe => ?_⟩
  obtain ⟨_, led'⟩ := safe.led
  obtain ⟨_, lies'⟩ := safe.lies
  cases led.symm.trans led'
  cases lies.symm.trans lies'
  have held := safe.holds []
  rw [List.append_nil, (find_eq_ok.mp lies).2, List.append_nil, (find_eq_ok.mp led).2] at held
  cases held

/-- The snapshot of a folder that is named by what lies in it comes to lie in the folder. -/
theorem snapshot_within : ∃ before,
    Does (takeSnapshot ⟨"w/x/.."⟩ (snapshotPath nested ⟨"w/x/.."⟩)) (.ofFiles ⟨"/"⟩ nested) ()
      before ∧
    ∀ spot copy, ¬ SafeSnapshot nested ⟨"w/x/.."⟩ (snapshotPath nested ⟨"w/x/.."⟩) spot copy
      before.files := by
  have led : nested.find .content ⟨"w/x/.."⟩ = .ok (["w"], .folder) := by decide
  obtain ⟨_, before, taken, lies⟩ := exists_of_done
    (takeSnapshot ⟨"w/x/.."⟩ (snapshotPath nested ⟨"w/x/.."⟩)) (.ofFiles ⟨"/"⟩ nested)
    (fun before => decide (before.files.find .entry (snapshotPath nested ⟨"w/x/.."⟩)
      = .ok (["w", "x", "target-backup"], .folder))) (by decide +kernel)
  have lies := of_decide_eq_true lies
  refine ⟨before, taken, fun spot copy safe => ?_⟩
  obtain ⟨_, led'⟩ := safe.led
  obtain ⟨_, lies'⟩ := safe.lies
  cases led.symm.trans led'
  cases lies.symm.trans lies'
  exact safe.apart ["x", "target-backup"] [] rfl

/-- Neither snapshot is out of reach.  If the change makes no difference, the second one is removed
with its target, and the target cannot be taken back. -/
theorem lost_with_target :
    (∃ before,
      Does (takeSnapshot ⟨"l"⟩ (snapshotPath linked ⟨"l"⟩)) (.ofFiles ⟨"/"⟩ linked) () before ∧
      ∀ spot copy,
        ¬ SafeSnapshot linked ⟨"l"⟩ (snapshotPath linked ⟨"l"⟩) spot copy before.files) ∧
    (∃ before,
      Does (takeSnapshot ⟨"w/x/.."⟩ (snapshotPath nested ⟨"w/x/.."⟩)) (.ofFiles ⟨"/"⟩ nested) ()
        before ∧
      ∀ spot copy, ¬ SafeSnapshot nested ⟨"w/x/.."⟩ (snapshotPath nested ⟨"w/x/.."⟩) spot copy
        before.files) ∧
    nested.item? ["w", "a"] = some (.file ⟨#[120]⟩) ∧
    ∃ f w', Fails (transact ⟨"w/x/.."⟩ (pure false)) (.ofFiles ⟨"/"⟩ nested) f w' ∧
      w'.files.item? ["w", "a"] = none := by
  obtain ⟨f, w', fails, gone⟩ := exists_of_failed (transact ⟨"w/x/.."⟩ (pure false))
    (.ofFiles ⟨"/"⟩ nested) (fun w' => decide (w'.files.item? ["w", "a"] = none))
    (by decide +kernel)
  exact ⟨snapshot_of_link, snapshot_within, by decide, f, w', fails, of_decide_eq_true gone⟩

end ReachedSnapshot

end ClassNaming
