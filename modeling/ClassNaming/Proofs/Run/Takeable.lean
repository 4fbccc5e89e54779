import ClassNaming.Proofs.Files.Remains
import ClassNaming.Proofs.Run.Finishing

/-!
# When a snapshot can be taken

Whatever lies where a snapshot is to be made is removed first, and then the target is copied there.
So the snapshot can be taken just if the path of the target still leads to it without what was in
the way, and all paths that the copy follows can be followed.

Otherwise nothing has changed but what was in the way.  The target itself is never touched: the
snapshot is to have another name than the target, so it is to lie beside it.

## Main Definitions

* `Takeable` - a target of which a snapshot can be taken

## Main Results

* `exists_taken_iff` - when a snapshot can be taken
* `elsewhere_of_untaken` - what is left when it cannot be taken
-/

namespace ClassNaming

open FileTree

variable {w w' before : World} {t : FileTree} {target snapshot : Path} {parts : List PathPart}
  {folder : Spot} {a b : String} {f : Failure}

/-- Without what lies where its snapshot is to be, a target is found at its spot, and all paths that
a copy follows can be followed. -/
def Takeable (t : FileTree) (target snapshot : Path) (spot copy : Spot) : Prop :=
  ∃ item, ((t.dropBelow copy).drop copy).find .entry target = .ok (spot, item) ∧
    Followable ((t.dropBelow copy).drop copy) spot item target snapshot

variable (siblings : Siblings w.files target snapshot parts folder a b)

include siblings

theorem takeable_of_taken (taken : Does (takeSnapshot target snapshot) w () before) :
    Takeable w.files target snapshot (folder ++ [a]) (folder ++ [b]) := by
  obtain ⟨u, removes, copies⟩ := does_takeSnapshot taken
  obtain ⟨leads, -, -, cleared, -, -⟩ := copies_of_replaced siblings.ordinary siblings.leads
    siblings.target_parts siblings.snapshot_parts siblings.no_link removes copies
  obtain ⟨item, found⟩ := find_of_copyTree ⟨parts, a, folder, siblings.target_parts, leads, rfl⟩
    (fun target linked => siblings.no_link target (cleared.sub linked)) copies
  have followable := followable_of_copyTree (cleared.ordinary siblings.ordinary) found
    ⟨parts, b, folder, siblings.snapshot_parts, leads, rfl⟩ copies
  have same : ∀ other, u.item? other
      = ((w.files.dropBelow (folder ++ [b])).drop (folder ++ [b])).item? other := fun other => by
    rw [cleared, cleared_dropBelow (by simp)]
  exact ⟨item, (find_congr same _ _).symm.trans found, followable.congr same⟩

theorem exists_taken
    (takeable : Takeable w.files target snapshot (folder ++ [a]) (folder ++ [b])) :
    ∃ before, Does (takeSnapshot target snapshot) w () before := by
  obtain ⟨item, found, followable⟩ := takeable
  have without : w.files.Cleared (folder ++ [b])
      ((w.files.dropBelow (folder ++ [b])).drop (folder ++ [b])) := cleared_dropBelow (by simp)
  obtain ⟨folder', leads, -⟩ := names_of_resolveFrom siblings.target_parts
    (resolve_eq_ok.mp (find_eq_ok.mp found).1).2
  obtain rfl := siblings.leads.unique (leads.mono without.sub)
  -- What is in the way can be removed, since the path does not lead through it.
  have reaches : Leads (w.files.dropBelow (folder ++ [b])).item? parts folder :=
    leads.mono (drop_sub (by simp))
  obtain ⟨u, removed, cleared⟩ := removeTree_clears siblings.ordinary
    ⟨parts, b, folder, siblings.snapshot_parts, reaches, rfl⟩ followable.made.short
    (by simp [siblings.plain]) (.inl siblings.plain)
  have same : ∀ other, ((w.files.dropBelow (folder ++ [b])).drop (folder ++ [b])).item? other
      = u.item? other := fun other => by rw [cleared, without]
  have leads' : Leads u.item? parts folder := leads.mono fun other item there => by
    rwa [← same]
  obtain ⟨v, copied⟩ := exists_copyTree (cleared.ordinary siblings.ordinary)
    ((find_congr same _ _).symm.trans found)
    ⟨parts, b, folder, siblings.snapshot_parts, leads', rfl⟩ cleared.vacant (followable.congr same)
  obtain ⟨v', copies, -⟩ : ∃ v', Does (copyAndTell (.createSnapshot snapshot.text) target snapshot)
      { w with files := u } () v' ∧ v'.files = v := exists_copyAndTell copied
  exact ⟨_, removed.onFiles.bind (copies.bind Does.say)⟩

/-- **When a snapshot can be taken.** -/
theorem exists_taken_iff : (∃ before, Does (takeSnapshot target snapshot) w () before) ↔
    Takeable w.files target snapshot (folder ++ [a]) (folder ++ [b]) :=
  ⟨fun ⟨_, taken⟩ => takeable_of_taken siblings taken, exists_taken siblings⟩

/-- **When a snapshot cannot be taken**, nothing has changed but what lies where it was to be. -/
theorem elsewhere_of_untaken (fails : Fails (takeSnapshot target snapshot) w f w') {other : Spot}
    (outside : ¬ folder ++ [b] <+: other) : w'.files.item? other = w.files.item? other := by
  have names : Names w.files.item? snapshot (folder ++ [b]) :=
    ⟨parts, b, folder, siblings.snapshot_parts, siblings.leads, rfl⟩
  simp only [takeSnapshot, fails_bind] at fails
  rcases fails with removes | ⟨_, _, removes, copies | ⟨_, _, -, said⟩⟩
  · obtain ⟨u, stopped, rfl⟩ := fails_onFiles.mp removes
    exact elsewhere_of_unremoved names siblings.plain stopped outside
  · obtain ⟨u, removed, rfl⟩ := does_onFiles.mp removes
    obtain ⟨f', copied, -⟩ := fails_copyAndTell copies
    obtain ⟨ordinary, sub, same⟩ :=
      reduced_of_removed names siblings.plain siblings.ordinary removed
    have missing := removeTree_vacates siblings.snapshot_parts siblings.ordinary removed
    rcases fails_copyTree_cases missing copied with ⟨-, unchanged⟩ | ⟨s, item, found, -⟩
    · rw [← unchanged]
      exact same other outside
    · -- The target is still found, so the snapshot was to be made in the folder that it is in.
      obtain ⟨folder', leads, -⟩ := names_of_resolveFrom siblings.target_parts
        (resolve_eq_ok.mp (find_eq_ok.mp found).1).2
      obtain rfl := siblings.leads.unique (leads.mono sub)
      exact (elsewhere_of_uncopied ⟨parts, b, folder, siblings.snapshot_parts, leads, rfl⟩ ordinary
        copied outside).trans (same other outside)
  · exact absurd said fails_modify

end ClassNaming
