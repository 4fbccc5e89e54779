import ClassNaming.Proofs.Run.Takeable

/-!
# A transaction keeps or restores

A transaction that goes well leaves the target as the change left it, or as it was; one whose change
fails leaves the target as it is then, and a copy of what it was.  Nothing else changes.  If the
snapshot cannot be taken the change is not made, and the target is as it was.

The change may do whatever it likes to the target.  It may even remove it; but if the path of the
snapshot leads through the target, as `w/../w-backup` leads through `w`, the snapshot is not found
any more after that.  It is not removed then, and the target is not taken back from it.

## Main Definitions

* `Confined` - a change to nothing but the target
* `Finishable` - what was changed can be kept, or taken back
* `TransactionEnd` - how a transaction ends

## Main Results

* `transact_keeps_or_restores` - how every transaction ends
-/

namespace ClassNaming

open FileTree

variable {w : World} {target : Path} {change : Job Option World Bool} {spot copy : Spot}

/-- A change that leaves a tree that a disk can hold, and changes nothing outside of the target, if
it comes to an end in the world in which the snapshot was just taken. -/
structure Confined (change : Job Option World Bool) (spot : Spot) (before : World) : Prop where
  ordinary : ∀ outcome after, ending change before = some (outcome, after) → after.files.Ordinary
  elsewhere : ∀ outcome after, ending change before = some (outcome, after) →
    ∀ other, ¬ spot <+: other → after.files.item? other = before.files.item? other

/-- What is asked of the tree that a change leaves when it goes well.  If the change made a
difference, the path of the snapshot must still lead to it, without passing through it.  If it made
none, the target must be one that can be taken back. -/
structure Finishable (t : FileTree) (target : Path) (spot copy : Spot) (answer : Bool)
    (u : FileTree) : Prop where
  leads : answer = true →
    (u.dropBelow copy).resolve .entry (snapshotPath t target) = .ok copy
  restorable : answer = false → Restorable t target spot u

/-- How a transaction ends, or that it does not end, on a target at a spot with a snapshot at
another one. -/
inductive TransactionEnd (target : Path) (change : Job Option World Bool) (spot copy : Spot)
    (w : World) : Option (Except Failure Outcome × World) → Prop
  /-- The snapshot cannot be taken, for a reason of reading or writing files.  The target is as it
  was, and so is everything else but what lies where the snapshot was to be. -/
  | untaken {f : Failure} {w' : World}
      (impossible : ¬ Takeable w.files target (snapshotPath w.files target) spot copy)
      (io : f.IsIo)
      (intact : ∀ names, w'.files.item? (spot ++ names) = w.files.item? (spot ++ names))
      (elsewhere : ∀ other, ¬ copy <+: other → w'.files.item? other = w.files.item? other) :
      TransactionEnd target change spot copy w (some (.error f, w'))
  /-- The change goes on for ever. -/
  | endless {before : World}
      (taken : Does (takeSnapshot target (snapshotPath w.files target)) w () before)
      (goesOn : GoesOn change before) : TransactionEnd target change spot copy w none
  /-- The change failed.  Its error is returned, the target is as the change left it, and the
  snapshot is a copy of the target as it was. -/
  | failed {f : Failure} {before w' : World}
      (taken : Does (takeSnapshot target (snapshotPath w.files target)) w () before)
      (fails : Fails change before f w')
      (at_copy : ∀ names, w'.files.item? (copy ++ names) = w.files.item? (spot ++ names))
      (elsewhere : ∀ other, ¬ spot <+: other → ¬ copy <+: other →
        w'.files.item? other = w.files.item? other) :
      TransactionEnd target change spot copy w (some (.error f, w'))
  /-- The change made a difference.  The target is as the change left it, and nothing lies where the
  snapshot was. -/
  | kept {before after w' : World}
      (taken : Does (takeSnapshot target (snapshotPath w.files target)) w () before)
      (does : Does change before true after) (cleared : after.files.Cleared copy w'.files)
      (elsewhere : ∀ other, ¬ spot <+: other → ¬ copy <+: other →
        w'.files.item? other = w.files.item? other) :
      TransactionEnd target change spot copy w (some (.ok .kept, w'))
  /-- The change made no difference.  All is as it was, and nothing lies where the snapshot was. -/
  | restored {before after w' : World}
      (taken : Does (takeSnapshot target (snapshotPath w.files target)) w () before)
      (does : Does change before false after) (cleared : w.files.Cleared copy w'.files) :
      TransactionEnd target change spot copy w (some (.ok .restored, w'))

section Ends

variable {snapshot : Path} {parts : List PathPart} {folder : Spot} {a b : String}
  {before after w' : World}
  (siblings : Siblings w.files target (snapshotPath w.files target) parts folder a b)

include siblings

/-- When the snapshot could not be taken, the transaction ends without it. -/
theorem transactionEnd_of_untaken {f : Failure}
    (fails : Fails (takeSnapshot target (snapshotPath w.files target)) w f w') :
    TransactionEnd target change (folder ++ [a]) (folder ++ [b]) w (some (.error f, w')) := by
  have elsewhere : ∀ other, ¬ folder ++ [b] <+: other →
      w'.files.item? other = w.files.item? other := fun _ => elsewhere_of_untaken siblings fails
  refine .untaken (fun takeable => ?_) (isIo_of_takeSnapshot siblings fails)
    (fun names => elsewhere _ (not_below_of_ne siblings.apart.symm names)) elsewhere
  obtain ⟨_, taken⟩ := exists_taken siblings takeable
  exact taken.not_fails fails

variable (taken : Does (takeSnapshot target (snapshotPath w.files target)) w () before)
  (confined : Confined change (folder ++ [a]) before)

include taken confined

/-- What the change leaves alone is as it was before the snapshot was taken. -/
theorem untouched_of_confined {outcome : Except Failure Bool}
    (ends : ending change before = some (outcome, after)) {other : Spot}
    (outside : ¬ folder ++ [a] <+: other) (outside' : ¬ folder ++ [b] <+: other) :
    after.files.item? other = w.files.item? other := by
  obtain ⟨_, -, -, -, -, copied⟩ := taken_of_does siblings taken
  rw [confined.elsewhere outcome after ends other outside, copied.elsewhere other outside']

/-- When the change failed, the snapshot holds what was there before. -/
theorem transactionEnd_of_failed {f : Failure} (fails : Fails change before f w') :
    TransactionEnd target change (folder ++ [a]) (folder ++ [b]) w (some (.error f, w')) :=
  .failed taken fails (held_of_taken siblings taken (confined.elsewhere _ _ fails))
    fun _ => untouched_of_confined siblings taken confined fails

/-- When the change made a difference, the transaction comes to its end and keeps it. -/
theorem transactionEnd_of_kept (changed : Does change before true after)
    (leads : (after.files.dropBelow (folder ++ [b])).resolve .entry (snapshotPath w.files target)
      = .ok (folder ++ [b])) :
    (∀ f w', ¬ Fails (keepTarget (snapshotPath w.files target)) after f w') ∧
    ∀ outcome w', Does (keepTarget (snapshotPath w.files target)) after outcome w' →
      TransactionEnd target change (folder ++ [a]) (folder ++ [b]) w (some (.ok outcome, w')) := by
  obtain ⟨free, cleared, reaches, apart, -, copied⟩ := taken_of_does siblings taken
  have ordinary := confined.ordinary _ _ changed
  have elsewhere := confined.elsewhere _ _ changed
  obtain ⟨_, does⟩ := exists_keepTarget siblings taken ordinary elsewhere
    (siblings.leads_of_resolve leads).2
  refine ⟨fun f w' => does.not_fails, fun outcome w' does => ?_⟩
  obtain ⟨rfl, removes⟩ := does_keepTarget does
  have gone := cleared_of_kept siblings copied apart ordinary elsewhere leads removes
  refine .kept taken changed gone fun other outside outside' => ?_
  rw [gone, if_neg outside', untouched_of_confined siblings taken confined changed outside outside']

/-- When the change made none, the transaction comes to its end and takes the target back. -/
theorem transactionEnd_of_restored (there : w.files.exists? target = true)
    (changed : Does change before false after)
    (restorable : Restorable w.files target (folder ++ [a]) after.files) :
    (∀ f w', ¬ Fails (restoreTarget target (snapshotPath w.files target)) after f w') ∧
    ∀ outcome w', Does (restoreTarget target (snapshotPath w.files target)) after outcome w' →
      TransactionEnd target change (folder ++ [a]) (folder ++ [b]) w (some (.ok outcome, w')) := by
  obtain ⟨free, cleared, reaches, apart, -, copied⟩ := taken_of_does siblings taken
  have ordinary := confined.ordinary _ _ changed
  have elsewhere := confined.elsewhere _ _ changed
  obtain ⟨_, does⟩ := exists_restoreTarget siblings taken there restorable ordinary elsewhere
  refine ⟨fun f w' => does.not_fails, fun outcome w' does => ?_⟩
  obtain ⟨rfl, u, v, removes, copies, clears⟩ := does_restoreTarget does
  have leads := leads_of_direct siblings taken restorable.direct fun other outside _ =>
    elsewhere other outside
  exact .restored taken changed (cleared_of_restored siblings cleared reaches copied apart ordinary
    leads elsewhere removes copies clears)

/-- So a transaction whose change came to its end with what finishing it asks for is finished. -/
theorem transactionEnd_of_changed (there : w.files.exists? target = true) {answer : Bool}
    (changed : Does change before answer after)
    (finishable : Finishable w.files target (folder ++ [a]) (folder ++ [b]) answer after.files) :
    (∀ f w', ¬ if answer then Fails (keepTarget (snapshotPath w.files target)) after f w'
      else Fails (restoreTarget target (snapshotPath w.files target)) after f w') ∧
    ∀ outcome w', (if answer then Does (keepTarget (snapshotPath w.files target)) after outcome w'
        else Does (restoreTarget target (snapshotPath w.files target)) after outcome w') →
      TransactionEnd target change (folder ++ [a]) (folder ++ [b]) w (some (.ok outcome, w')) := by
  cases answer with
  | true =>
    simpa using transactionEnd_of_kept siblings taken confined changed (finishable.leads rfl)
  | false =>
    simpa using transactionEnd_of_restored siblings taken confined there changed
      (finishable.restorable rfl)

end Ends

/-- A transaction on a target that does not exist fails and leaves the world alone.  One on a file
or a folder keeps the target as the change left it, or takes it back, or returns the error of the
change with the snapshot in place; it goes on for ever only if the change does.  Its snapshot can be
taken just if the target is found without what is in the way, and otherwise the target is left as it
was. -/
theorem transact_keeps_or_restores (target : Path) (change : Job Option World Bool) (w : World) :
    (w.files.exists? target = false →
      ending (transact target change) w
        = some (.error (Failure.ofCause (.missingPath target.text)), w)) ∧
    ∀ spot copy, w.files.exists? target = true → TargetAt w.files target spot copy →
      ((∃ before, Does (takeSnapshot target (snapshotPath w.files target)) w () before) ↔
        Takeable w.files target (snapshotPath w.files target) spot copy) ∧
      ((∀ before, Does (takeSnapshot target (snapshotPath w.files target)) w () before →
          Confined change spot before ∧ ∀ answer after, Does change before answer after →
            Finishable w.files target spot copy answer after.files) →
        TransactionEnd target change spot copy w (ending (transact target change) w)) := by
  refine ⟨fun missing => ?_, fun spot copy there at_ => ?_⟩
  · show Fails _ _ _ _
    simp [transact, missing]
  obtain ⟨parts, folder, a, b, siblings, rfl, rfl⟩ := at_.siblings
  refine ⟨exists_taken_iff siblings, fun asked => ?_⟩
  rcases done_or_failed_or_goesOn (transact target change) w with
    ⟨outcome, w', does⟩ | ⟨f, w', fails⟩ | goesOn
  · rw [show ending (transact target change) w = some (.ok outcome, w') from does]
    obtain ⟨before, answer, after, taken, changed, ends⟩ := does_transact there does
    obtain ⟨confined, finishable⟩ := asked before taken
    exact (transactionEnd_of_changed siblings taken confined there changed
      (finishable answer after changed)).2 _ _ ends
  · rw [show ending (transact target change) w = some (.error f, w') from fails]
    rcases fails_transact there fails with
      untaken | ⟨before, taken, failed | ⟨answer, after, changed, ends⟩⟩
    · exact transactionEnd_of_untaken siblings untaken
    · exact transactionEnd_of_failed siblings taken (asked before taken).1 failed
    · obtain ⟨confined, finishable⟩ := asked before taken
      exact absurd ends ((transactionEnd_of_changed siblings taken confined there changed
        (finishable answer after changed)).1 f w')
  · rw [show ending (transact target change) w = none from goesOn]
    obtain ⟨before, taken, goesOn⟩ := (goesOn_transact there).mp goesOn
    exact .endless taken goesOn

namespace OneFolder

/-- A change that writes another file in the folder. -/
def writing : Job Option World Bool := do
  modify fun w => { w with files := w.files.put ["w", "b"] (.file ⟨#[121]⟩) }
  return true

/-- A change that removes the folder. -/
def removing : Job Option World Bool := do
  modify fun w => { w with files := (w.files.dropBelow ["w"]).drop ["w"] }
  return true

/-- A change that puts a file in place of the folder, and says that it made no difference. -/
def replacing : Job Option World Bool := do
  modify fun w => { w with
    files := ((w.files.dropBelow ["w"]).drop ["w"]).put ["w"] (.file ⟨#[121]⟩) }
  return false

/-- When a snapshot of the folder was taken, the folder and the rest of the tree are as they
were. -/
theorem of_taken {path : Path} (at_ : TargetAt tree path ["w"] ["w-backup"]) {before : World}
    (taken : Does (takeSnapshot path (snapshotPath tree path)) world () before) :
    before.files.Ordinary ∧ ∀ other, ¬ ["w-backup"] <+: other →
      before.files.item? other = tree.item? other := by
  obtain ⟨parts, folder, a, b, siblings, -, at_copy⟩ := at_.siblings
  obtain ⟨-, -, -, -, ordinary, copied⟩ := taken_of_does siblings taken
  rw [← at_copy] at copied
  exact ⟨ordinary, copied.elsewhere⟩

/-- A change that does nothing is confined. -/
theorem confined_pure {answer : Bool} {before : World} (ordinary : before.files.Ordinary) :
    Confined (pure answer) ["w"] before where
  ordinary := by
    rintro outcome after ⟨⟩
    exact ordinary
  elsewhere := by
    rintro outcome after ⟨⟩ other -
    rfl

/-- A change that removes the folder is confined. -/
theorem confined_removing {before : World} (ordinary : before.files.Ordinary) :
    Confined removing ["w"] before where
  ordinary := by
    rintro outcome after ⟨⟩
    exact (cleared_dropBelow (by decide)).ordinary ordinary
  elsewhere := by
    rintro outcome after ⟨⟩ other outside
    exact (cleared_dropBelow (by decide) other).trans (if_neg outside)

/-- So is one that puts a file in its place. -/
theorem confined_replacing {before : World} (ordinary : before.files.Ordinary) :
    Confined replacing ["w"] before where
  ordinary := by
    rintro outcome after ⟨⟩
    have cleared : before.files.Cleared ["w"] ((before.files.dropBelow ["w"]).drop ["w"]) :=
      cleared_dropBelow (by decide)
    have put : (((before.files.dropBelow ["w"]).drop ["w"]).put ([] ++ ["w"])
        (.file ⟨#[121]⟩)).Ordinary :=
      (cleared.ordinary ordinary).put item?_root (isName_sample (by decide)) (by decide)
        cleared.vacant
    exact put
  elsewhere := by
    rintro outcome after ⟨⟩ other outside
    refine (item?_put (by simp)).trans ((if_neg ?_).trans
      ((cleared_dropBelow (by decide) other).trans (if_neg outside)))
    rintro rfl
    exact outside (List.prefix_refl _)

/-- So is one that writes another file in it. -/
theorem confined_writing {before : World} (ordinary : before.files.Ordinary)
    (same : ∀ other, ¬ ["w-backup"] <+: other → before.files.item? other = tree.item? other) :
    Confined writing ["w"] before where
  ordinary := by
    rintro outcome after ⟨⟩
    have above : before.files.item? ["w"] = some .folder := by
      rw [same _ (by decide)]
      decide
    have vacant : before.files.item? (["w"] ++ ["b"]) = none := by
      rw [same _ (by decide)]
      decide
    exact ordinary.put above (isName_sample (by decide)) (by decide) vacant
  elsewhere := by
    rintro outcome after ⟨⟩ other outside
    refine (item?_put (by simp)).trans (if_neg ?_)
    rintro rfl
    exact outside ⟨["b"], rfl⟩

/-- The path of the snapshot leads past the folder, whatever becomes of that. -/
theorem finishable_kept {u : FileTree} :
    Finishable tree ⟨"w"⟩ ["w"] ["w-backup"] true u where
  leads := by
    rintro -
    rw [snapshotPath_folder]
    have names : Names (u.dropBelow ["w-backup"]).item? ⟨"w-backup"⟩ ["w-backup"] :=
      ⟨[], "w-backup", [], by decide, ⟨linkLimit, .done⟩, rfl⟩
    refine names.resolve_plain (by decide) ⟨by decide, fun name ends => ?_⟩
    obtain rfl : "w-backup" = name := Option.some.inj (Eq.trans (by decide) ends)
    decide
  restorable := nofun

/-- A snapshot of the folder can be taken.  Another file is written in the folder, and the folder is
kept. -/
theorem keeps_written :
    (∃ before, Does (takeSnapshot ⟨"w"⟩ (snapshotPath tree ⟨"w"⟩)) world () before) ∧
    TransactionEnd ⟨"w"⟩ writing ["w"] ["w-backup"] world
      (ending (transact ⟨"w"⟩ writing) world) := by
  obtain ⟨possible, ends⟩ := (transact_keeps_or_restores ⟨"w"⟩ writing world).2 _ _
    (by decide) targetAt_folder
  refine ⟨possible.mpr ⟨.folder, by decide +kernel, by decide +kernel⟩, ends fun before taken => ?_⟩
  obtain ⟨ordinary, same⟩ := of_taken targetAt_folder taken
  refine ⟨confined_writing ordinary same, ?_⟩
  rintro answer after ⟨⟩
  exact finishable_kept

/-- A dot at the end of the path makes no difference to where the target lies. -/
theorem targetAt_dot : TargetAt tree ⟨"w/."⟩ ["w"] ["w-backup"] :=
  beside.2.2.1.targetAt ordinary_tree (.inl (by decide))

/-- Neither does a separator. -/
theorem targetAt_open : TargetAt tree ⟨"w/"⟩ ["w"] ["w-backup"] :=
  beside.2.2.2.targetAt ordinary_tree (.inl (by decide))

/-- The path of a snapshot may lead through the target.  If the change removes the target, the
snapshot is not found any more, and stays.  If the change does nothing, the target is removed to be
taken back, and is lost.  So it is emptied if its path ends with a dot, and if the path ends with a
separator a file in its place remains. -/
theorem leaves_snapshot :
    (TargetAt tree ⟨"w/../w"⟩ ["w"] ["w-backup"] ∧ TargetAt tree ⟨"w/."⟩ ["w"] ["w-backup"] ∧
      TargetAt tree ⟨"w/"⟩ ["w"] ["w-backup"]) ∧
    (∀ path, TargetAt tree path ["w"] ["w-backup"] → ∀ before,
      Does (takeSnapshot path (snapshotPath tree path)) world () before →
        Confined removing ["w"] before ∧ Confined (pure false) ["w"] before ∧
        Confined replacing ["w"] before) ∧
    (∃ w', Does (transact ⟨"w/../w"⟩ removing) world .kept w' ∧
      w'.files.item? ["w-backup"] = some .folder) ∧
    (∃ f w', Fails (transact ⟨"w/../w"⟩ (pure false)) world f w' ∧ w'.files.item? ["w"] = none) ∧
    (∃ f w', Fails (transact ⟨"w/."⟩ (pure false)) world f w' ∧
      w'.files.item? ["w", "a"] = none) ∧
    ∃ f w', Fails (transact ⟨"w/"⟩ replacing) world f w' ∧
      w'.files.item? ["w"] = some (.file ⟨#[121]⟩) := by
  refine ⟨⟨targetAt_detour, targetAt_dot, targetAt_open⟩, fun path at_ before taken => ?_, ?_, ?_,
    ?_, ?_⟩
  · obtain ⟨ordinary, -⟩ := of_taken at_ taken
    exact ⟨confined_removing ordinary, confined_pure ordinary, confined_replacing ordinary⟩
  · obtain ⟨outcome, w', does, there⟩ := exists_of_done (transact ⟨"w/../w"⟩ removing) world
      (fun w' => decide (w'.files.item? ["w-backup"] = some .folder)) (by decide +kernel)
    obtain ⟨before, answer, after, -, changed, ends⟩ := does_transact (by decide) does
    cases changed
    obtain ⟨rfl, -⟩ := does_keepTarget ends
    exact ⟨w', does, of_decide_eq_true there⟩
  · obtain ⟨f, w', fails, gone⟩ := exists_of_failed (transact ⟨"w/../w"⟩ (pure false)) world
      (fun w' => decide (w'.files.item? ["w"] = none)) (by decide +kernel)
    exact ⟨f, w', fails, of_decide_eq_true gone⟩
  · obtain ⟨f, w', fails, gone⟩ := exists_of_failed (transact ⟨"w/."⟩ (pure false)) world
      (fun w' => decide (w'.files.item? ["w", "a"] = none)) (by decide +kernel)
    exact ⟨f, w', fails, of_decide_eq_true gone⟩
  · obtain ⟨f, w', fails, there⟩ := exists_of_failed (transact ⟨"w/"⟩ replacing) world
      (fun w' => decide (w'.files.item? ["w"] = some (.file ⟨#[121]⟩))) (by decide +kernel)
    exact ⟨f, w', fails, of_decide_eq_true there⟩

end OneFolder

end ClassNaming
