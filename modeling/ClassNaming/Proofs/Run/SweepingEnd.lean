import ClassNaming.Proofs.Run.EndlessSweep
import ClassNaming.Proofs.Run.Takeable

/-!
# A transaction with a sweep

A run is a transaction whose change is a sweep.  The line that is printed last tells how far it
came.  Taking the snapshot may fail, and so may the sweep, or the sweep may never end; the rest
cannot fail, but for a target whose path leads through the target itself.

## Main Definitions

* `PlainArchives` - a tree with no archive that seems to be large
* `SweepingEnd` - how a transaction with a sweep ends

## Main Results

* `same_of_unchanged`, `changed_of_does` - what a sweep tells of the files
* `transact_sweep_ends` - the end of a transaction with a sweep
* `goesOn_transact_of_file` - a transaction that has none
-/

namespace ClassNaming

open FileTree Archive

variable {renamer : Renamer} {w w' before after : World} {t u : FileTree} {f : Failure}
  {target snapshot : Path} {spot copy other : Spot} {out : ByteArray} {changed : Bool}
  {parts : List PathPart} {folder : Spot} {a b : String}

/-! ### What a sweep tells -/

/-- No archive at or below a spot, nor one inside another, has bytes that seem to be those of a
large archive. -/
def PlainArchives (t : FileTree) (spot : Spot) : Prop :=
  ∀ folder name content a b, spot <+: folder ++ [name] →
    t.item? (folder ++ [name]) = some (.file content) → Path.kind ⟨name⟩ = .archive →
    Archive.ofBytes content = .ok a → Within a b → ¬ SeemsLarge b.bytes

/-- A file that a sweep makes new is not what it was, unless an archive seems to be large. -/
theorem SweepsAt.ne_of_new (sweeps : SweepsAt renamer t other true out) (inside : spot <+: other)
    (plain : PlainArchives t spot) : t.item? other ≠ some (.file out) := by
  obtain ⟨folder, name, content, rfl, there, sweeps⟩ := sweeps
  intro same
  refine sweeps.ne_of_new (fun kind a b opened within =>
    plain folder name content a b inside there kind opened within) ?_
  exact Item.file.inj (Option.some.inj (same.symm.trans there))

/-- A sweep that is told of is a sweep. -/
theorem does_sweepAndTell (does : Does (sweepAndTell renamer target) w changed w') :
    ∃ tally v, Does (sweep renamer target) w tally v ∧ tally.changed = changed ∧
      v.files = w'.files := by
  simp only [sweepAndTell, does_bind, does_tellNow, does_pure] at does
  obtain ⟨tally, v, swept, _, _, rfl, rfl, rfl⟩ := does
  exact ⟨tally, v, swept, rfl, rfl⟩

/-- It fails as the sweep does. -/
theorem fails_sweepAndTell (fails : Fails (sweepAndTell renamer target) w f w') :
    Fails (sweep renamer target) w f w' := by
  simpa [sweepAndTell, fails_bind, fails_tellNow] using fails

/-- It goes on as the sweep does. -/
theorem goesOn_sweepAndTell (goesOn : GoesOn (sweepAndTell renamer target) w) :
    GoesOn (sweep renamer target) w := by
  simpa [sweepAndTell] using goesOn

section Sweep

variable {item : Item} (ordinary : w.files.Ordinary)
  (found : w.files.find .entry target = .ok (spot, item)) (no_link : ∀ target, item ≠ .link target)
  (free : StagingFree w.files spot)

include ordinary found no_link free

/-- When a sweep is done, the tree is swept at least in part. -/
theorem partlySwept_of_does (does : Does (sweepAndTell renamer target) w changed w') :
    PartlySwept renamer w.files spot w'.files := by
  obtain ⟨tally, v, swept, -, same⟩ := does_sweepAndTell does
  exact same ▸ partlySwept ordinary found no_link free swept

/-- So it is when a sweep has failed. -/
theorem partlySwept_of_fails (fails : Fails (sweepAndTell renamer target) w f w') :
    PartlySwept renamer w.files spot w'.files :=
  partlySwept ordinary found no_link free (fails_sweepAndTell fails)

/-- A sweep that tells of no change has changed nothing. -/
theorem same_of_unchanged (does : Does (sweepAndTell renamer target) w false w') (other : Spot) :
    w'.files.item? other = w.files.item? other := by
  obtain ⟨tally, v, swept, unchanged, same⟩ := does_sweepAndTell does
  obtain ⟨swept, changed⟩ := swept_of_sweep ordinary found no_link free swept
  rw [← same]
  by_cases below : FileBelow w.files spot other
  · obtain ⟨isNew, out, sweeps, now⟩ := swept.files other below
    cases isNew with
    | true => cases unchanged.symm.trans (changed.mpr ⟨other, out, below, sweeps⟩)
    | false =>
      obtain ⟨folder, name, content, -, there, sweeps⟩ := sweeps
      rw [now, there, sweeps.eq_of_old]
  · exact swept.elsewhere other below

/-- A sweep that tells of a change has changed a file, unless an archive seems to be large. -/
theorem changed_of_does (does : Does (sweepAndTell renamer target) w true w')
    (plain : PlainArchives w.files spot) :
    ∃ other, spot <+: other ∧ w'.files.item? other ≠ w.files.item? other := by
  obtain ⟨tally, v, swept, new, same⟩ := does_sweepAndTell does
  obtain ⟨swept, changed⟩ := swept_of_sweep ordinary found no_link free swept
  obtain ⟨other, out, below, sweeps⟩ := changed.mp new
  obtain ⟨isNew, out', sweeps', now⟩ := swept.files other below
  obtain ⟨rfl, rfl⟩ := sweeps.unique sweeps'
  refine ⟨other, below.1, fun unchanged => sweeps.ne_of_new below.1 plain ?_⟩
  rw [← unchanged, ← same, now]

end Sweep

/-! ### A transaction with a sweep -/

/-- How a run ends that is a transaction with a sweep: its exit status, its output and its files. -/
inductive SweepingEnd (t : FileTree) (target snapshot : Path) (spot copy : Spot) :
    Nat → List String → FileTree → Prop
  /-- The snapshot cannot be taken, and nothing has changed but what was in its way. -/
  | untaken {left : FileTree} (impossible : ¬ Takeable t target snapshot spot copy)
      (elsewhere : ∀ other, ¬ copy <+: other → left.item? other = t.item? other) :
      SweepingEnd t target snapshot spot copy 1 [] left
  /-- The sweep failed, and the snapshot stays. -/
  | failed {left : FileTree} (takeable : Takeable t target snapshot spot copy)
      (staging : StagingFree left spot)
      (held : ∀ names, left.item? (copy ++ names) = t.item? (spot ++ names)) :
      SweepingEnd t target snapshot spot copy 1 [takenLine snapshot] left
  /-- The sweep changed something, and nothing else is left of the run. -/
  | kept {left : FileTree} (takeable : Takeable t target snapshot spot copy)
      (staging : StagingFree left spot) (gone : ∀ names, left.item? (copy ++ names) = none)
      (differs : PlainArchives t spot →
        ∃ other, spot <+: other ∧ left.item? other ≠ t.item? other) :
      SweepingEnd t target snapshot spot copy 0 [takenLine snapshot, keptLine] left
  /-- The sweep changed nothing, and nothing is left of the run. -/
  | restored {left : FileTree} (takeable : Takeable t target snapshot spot copy)
      (cleared : t.Cleared copy left) :
      SweepingEnd t target snapshot spot copy 0 [takenLine snapshot, restoredLine] left
  /-- The sweep changed nothing, and the target could not be taken back. -/
  | lost {left : FileTree} (takeable : Takeable t target snapshot spot copy)
      (detour : ¬ Direct t target spot) :
      SweepingEnd t target snapshot spot copy 1 [takenLine snapshot, restoredLine] left

/-- Where the snapshot was cleared away, no staging file has appeared. -/
theorem StagingFree.of_cleared (free : StagingFree t spot) (cleared : t.Cleared copy u) :
    StagingFree u spot := by
  rintro folder name ⟨inside, content, there⟩ kind
  rw [cleared, free folder name ⟨inside, content, cleared.sub there⟩ kind, ite_self]

/-- What was printed when a transaction with a sweep came to its end. -/
theorem output_of_end {line : String} {answer : Bool} (quiet : w.printed = [])
    (taken : Does (takeSnapshot target snapshot) w () before)
    (swept : Does (sweepAndTell renamer target) before answer after)
    (last : w'.printed = line :: after.printed) : w'.output = [takenLine snapshot, line] := by
  rw [World.output, last, keeps_sweepAndTell.does swept, printed_of_taken taken, quiet]
  rfl

section Transaction

variable (siblings : Siblings w.files target snapshot parts folder a b)
  (taken : Does (takeSnapshot target snapshot) w () before)

include siblings taken

/-- After a sweep the path of the snapshot still leads to it. -/
theorem leads_of_swept (partly : PartlySwept renamer before.files (folder ++ [a]) u) :
    Leads (u.dropBelow (folder ++ [b])).item? parts folder := by
  obtain ⟨free, cleared, reaches, -, -, copied⟩ := taken_of_does siblings taken
  refine reaches.congr fun other item no_file found => ?_
  have old := cleared.sub found
  rw [cleared] at found
  split at found
  · cases found
  · rename_i outside
    rw [item?_dropBelow, if_neg fun below => outside below.1]
    exact partly.subWays no_file ((copied.elsewhere other outside).trans old)

/-- A sweep with a change is followed by the line that says so, and by the snapshot's removal. -/
theorem sweepingEnd_of_kept {outcome : Outcome} (quiet : w.printed = [])
    (swept : Does (sweepAndTell renamer target) before true after)
    (partly : PartlySwept renamer before.files (folder ++ [a]) after.files)
    (free : StagingFree before.files (folder ++ [a]))
    (differs : PlainArchives before.files (folder ++ [a]) →
      ∃ other, folder ++ [a] <+: other ∧ after.files.item? other ≠ before.files.item? other)
    (does : Does (keepTarget snapshot) after outcome w') :
    SweepingEnd w.files target snapshot (folder ++ [a]) (folder ++ [b]) 0 w'.output w'.files := by
  obtain ⟨-, -, -, apart, ordinary, copied⟩ := taken_of_does siblings taken
  obtain ⟨-, -, short⟩ := leads_of_taken siblings taken
  obtain ⟨-, removes⟩ := does_keepTarget does
  have names : Names (after.files.dropBelow (folder ++ [b])).item? snapshot (folder ++ [b]) :=
    ⟨parts, b, folder, siblings.snapshot_parts, leads_of_swept siblings taken partly, rfl⟩
  have cleared := cleared_of_kept siblings copied apart (partly.ordinary ordinary)
    (fun other outside => partly.elsewhere other fun below => outside below.1)
    (names.resolve_plain siblings.plain short) removes
  have target_same : ∀ other, folder ++ [a] <+: other →
      before.files.item? other = w.files.item? other := by
    rintro other ⟨names, rfl⟩
    exact copied.elsewhere _ (not_below_of_ne apart.symm names)
  rw [output_of_end quiet taken swept (printed_keepTarget does)]
  refine .kept (takeable_of_taken siblings taken) ((partly.stagingFree free).of_cleared cleared)
    (fun names => ?_) fun plain => ?_
  · rw [cleared, if_pos (List.prefix_append _ _)]
  · obtain ⟨other, ⟨names, rfl⟩, changed⟩ := differs fun folder' name content a b inside found =>
      plain folder' name content a b inside ((target_same _ inside).symm.trans found)
    refine ⟨_, List.prefix_append _ names, ?_⟩
    rwa [cleared, if_neg (not_below_of_ne apart.symm names),
      ← target_same _ (List.prefix_append _ names)]

/-- A sweep without one is followed by the other line, and leaves what was there before the snapshot
was taken. -/
theorem sweepingEnd_of_restored {outcome : Outcome} (quiet : w.printed = [])
    (swept : Does (sweepAndTell renamer target) before false after)
    (same : ∀ other, after.files.item? other = before.files.item? other)
    (partly : PartlySwept renamer before.files (folder ++ [a]) after.files)
    (does : Does (restoreTarget target snapshot) after outcome w') :
    SweepingEnd w.files target snapshot (folder ++ [a]) (folder ++ [b]) 0 w'.output w'.files := by
  obtain ⟨free, cleared, reaches, apart, ordinary, copied⟩ := taken_of_does siblings taken
  obtain ⟨-, x, y, removes, copies, clears⟩ := does_restoreTarget does
  have leads := (leads_of_swept siblings taken partly).mono (dropBelow_sub _)
  rw [output_of_end quiet taken swept (printed_restoreTarget does)]
  exact .restored (takeable_of_taken siblings taken) (cleared_of_restored siblings cleared reaches
    copied apart (partly.ordinary ordinary) leads (fun other _ => same other) removes copies clears)

/-- A sweep that failed is followed by nothing. -/
theorem sweepingEnd_of_failed (quiet : w.printed = [])
    (stopped : Fails (sweepAndTell renamer target) before f w')
    (partly : PartlySwept renamer before.files (folder ++ [a]) w'.files)
    (free : StagingFree before.files (folder ++ [a])) :
    SweepingEnd w.files target snapshot (folder ++ [a]) (folder ++ [b]) 1 w'.output w'.files := by
  have printed : w'.output = [takenLine snapshot] := by
    rw [World.output, keeps_sweepAndTell.fails stopped, printed_of_taken taken, quiet]
    rfl
  rw [printed]
  exact .failed (takeable_of_taken siblings taken) (partly.stagingFree free)
    (held_of_taken siblings taken fun other outside =>
      partly.elsewhere other fun below => outside below.1)

/-- What follows a sweep comes to an end with the target kept or restored. -/
theorem sweepingEnd_of_done {answer : Bool} {outcome : Outcome} (quiet : w.printed = [])
    (there : w.files.exists? target = true) (free : StagingFree before.files (folder ++ [a]))
    (swept : Does (sweepAndTell renamer target) before answer after)
    (ends : if answer then Does (keepTarget snapshot) after outcome w'
      else Does (restoreTarget target snapshot) after outcome w') :
    SweepingEnd w.files target snapshot (folder ++ [a]) (folder ++ [b]) 0 w'.output w'.files := by
  obtain ⟨item, no_link, -, now⟩ := find_of_taken there siblings taken
  obtain ⟨_, -, -, -, ordinary, -⟩ := taken_of_does siblings taken
  have found := now .entry (by simp)
  have partly := partlySwept_of_does ordinary found no_link free swept
  cases answer with
  | true =>
    exact sweepingEnd_of_kept siblings taken quiet swept partly free
      (changed_of_does ordinary found no_link free swept) ends
  | false =>
    exact sweepingEnd_of_restored siblings taken quiet swept
      (same_of_unchanged ordinary found no_link free swept) partly ends

/-- What follows a sweep cannot fail but where a target is taken back, and the path of the target
leads through the target then. -/
theorem sweepingEnd_of_lost {answer : Bool} (quiet : w.printed = [])
    (there : w.files.exists? target = true) (free : StagingFree before.files (folder ++ [a]))
    (end_ : target.closing ≠ [.follow .here])
    (open_ : target.check = .ok () → snapshot.check = .ok () →
      w.files.isFolder target = true → (target.join "").check = .ok ())
    (swept : Does (sweepAndTell renamer target) before answer after)
    (stopped : if answer then Fails (keepTarget snapshot) after f w'
      else Fails (restoreTarget target snapshot) after f w') :
    SweepingEnd w.files target snapshot (folder ++ [a]) (folder ++ [b]) 1 w'.output w'.files := by
  obtain ⟨item, no_link, old, now⟩ := find_of_taken there siblings taken
  obtain ⟨_, -, -, apart, ordinary, copied⟩ := taken_of_does siblings taken
  have found := now .entry (by simp)
  have partly := partlySwept_of_does ordinary found no_link free swept
  have ordinary_after := partly.ordinary ordinary
  have elsewhere : ∀ other, ¬ folder ++ [a] <+: other →
      after.files.item? other = before.files.item? other := fun other outside =>
    partly.elsewhere other fun below => outside below.1
  cases answer with
  | true =>
    obtain ⟨_, does⟩ := exists_keepTarget siblings taken ordinary_after elsewhere
      (leads_of_swept siblings taken partly)
    exact absurd stopped does.not_fails
  | false =>
    rw [output_of_end quiet taken swept (printed_restoreTarget stopped)]
    refine .lost (takeable_of_taken siblings taken) fun direct => ?_
    obtain ⟨-, short, short'⟩ := leads_of_taken siblings taken
    have old_item := (find_eq_ok.mp old).2
    have restorable : Restorable w.files target (folder ++ [a]) after.files := by
      refine ⟨direct, end_, fun is_folder => ?_,
        (asks_of_taken siblings taken there).imp_right fun is_folder item' held => ?_⟩
      · obtain rfl : item = .folder := Option.some.inj (old_item.symm.trans is_folder)
        exact open_ short.checked short'.checked (isFolder_iff.mpr ⟨_, old⟩)
      · -- The sweep changed nothing, so the target is the folder that it was.
        rw [same_of_unchanged ordinary found no_link free swept,
          copied.elsewhere _ (not_prefix_of_ne apart.symm), is_folder] at held
        exact (Option.some.inj held).symm
    obtain ⟨_, does⟩ := exists_restoreTarget siblings taken there restorable ordinary_after
      elsewhere
    exact absurd stopped does.not_fails

omit taken in
/-- Where no snapshot can be taken, nothing is swept. -/
theorem sweepingEnd_of_untaken (quiet : w.printed = [])
    (untaken : Fails (takeSnapshot target snapshot) w f w') :
    SweepingEnd w.files target snapshot (folder ++ [a]) (folder ++ [b]) 1 w'.output w'.files := by
  rw [show w'.output = [] by rw [World.output, printed_of_untaken untaken, quiet]; rfl]
  refine .untaken (fun takeable => ?_) fun other outside =>
    elsewhere_of_untaken siblings untaken outside
  obtain ⟨_, taken⟩ := exists_taken siblings takeable
  exact taken.not_fails untaken

/-- A sweep goes on for ever only at a file of the target that is swept for ever. -/
theorem endlessBelow_of_swept (there : w.files.exists? target = true)
    (free : StagingFree before.files (folder ++ [a]))
    (goesOn : GoesOn (sweepAndTell renamer target) before) :
    EndlessBelow renamer w.files (folder ++ [a]) := by
  obtain ⟨item, no_link, -, now⟩ := find_of_taken there siblings taken
  obtain ⟨_, -, -, apart, ordinary, copied⟩ := taken_of_does siblings taken
  refine (sweep_goesOn ordinary (now .entry (by simp)) no_link free
    (goesOn_sweepAndTell goesOn)).congr fun names => ?_
  rw [copied.elsewhere _ (not_below_of_ne apart.symm names)]

end Transaction

/-- **How a transaction with a sweep ends.**  Taking the snapshot may fail, and so may the sweep.
What is left to do then cannot, if the path of the target does not lead through the target.  The
transaction goes on for ever only at a file of the target that is swept for ever. -/
theorem transact_sweep_ends (quiet : w.printed = []) (there : w.files.exists? target = true)
    (at_ : TargetAt w.files target spot copy) (free : StagingFree w.files spot)
    (end_ : target.closing ≠ [.follow .here])
    (open_ : target.check = .ok () → (snapshotPath w.files target).check = .ok () →
      w.files.isFolder target = true → (target.join "").check = .ok ()) :
    (∃ f w', Fails (transact target (sweepAndTell renamer target)) w f w' ∧
      SweepingEnd w.files target (snapshotPath w.files target) spot copy 1 w'.output w'.files) ∨
    (∃ outcome w', Does (transact target (sweepAndTell renamer target)) w outcome w' ∧
      SweepingEnd w.files target (snapshotPath w.files target) spot copy 0 w'.output w'.files) ∨
    GoesOn (transact target (sweepAndTell renamer target)) w ∧
      Takeable w.files target (snapshotPath w.files target) spot copy ∧
      EndlessBelow renamer w.files spot := by
  have free' : ∀ {before : World},
      Does (takeSnapshot target (snapshotPath w.files target)) w () before →
      StagingFree before.files spot := fun taken => stagingFree_of_taken at_ taken free
  obtain ⟨parts, folder, a, b, siblings, rfl, rfl⟩ := at_.siblings
  rcases done_or_failed_or_goesOn (transact target (sweepAndTell renamer target)) w with
    ⟨outcome, w', does⟩ | ⟨f, w', fails⟩ | goesOn
  · obtain ⟨before, answer, after, taken, swept, ends⟩ := does_transact there does
    exact .inr (.inl ⟨outcome, w', does,
      sweepingEnd_of_done siblings taken quiet there (free' taken) swept ends⟩)
  · refine .inl ⟨f, w', fails, ?_⟩
    rcases fails_transact there fails with
      untaken | ⟨before, taken, stopped | ⟨answer, after, swept, stopped⟩⟩
    · exact sweepingEnd_of_untaken siblings quiet untaken
    · obtain ⟨item, no_link, -, now⟩ := find_of_taken there siblings taken
      obtain ⟨_, -, -, -, ordinary, -⟩ := taken_of_does siblings taken
      exact sweepingEnd_of_failed siblings taken quiet stopped
        (partlySwept_of_fails ordinary (now .entry (by simp)) no_link (free' taken) stopped)
        (free' taken)
    · exact sweepingEnd_of_lost siblings taken quiet there (free' taken) end_ open_ swept stopped
  · obtain ⟨before, taken, forever⟩ := (goesOn_transact there).mp goesOn
    exact .inr (.inr ⟨goesOn, takeable_of_taken siblings taken,
      endlessBelow_of_swept siblings taken there (free' taken) forever⟩)

end ClassNaming
