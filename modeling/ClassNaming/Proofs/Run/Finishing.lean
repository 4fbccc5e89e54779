import ClassNaming.Proofs.Files.Recovery
import ClassNaming.Proofs.Run.Printed
import ClassNaming.Proofs.Run.Snapshot

/-!
# What remains to be done in a transaction

When a change went well, the snapshot is removed, and before that the target is taken back from it
if nothing changed.  This cannot fail, since all paths that are followed for it were followed when
the snapshot was taken.

There are exceptions.  The path of a target may lead through the target itself, as `w/../w` does.
Once such a target is removed its path leads nowhere, and it cannot be taken back.  A folder cannot
be removed at all by a path with a dot behind it, nor a file by one with a separator.

## Main Definitions

* `Direct` - a path that does not lead through what it leads to
* `Restorable` - a target that can be taken back after a change

## Main Results

* `exists_targetRemoved`, `exists_copiedBack`, `exists_snapshotRemoved` - each step can be done
* `exists_keepTarget` - a target can be kept
* `exists_restoreTarget` - a target can be taken back
-/

namespace ClassNaming

open FileTree

variable {w before after : World} {t u v : FileTree} {target snapshot p q : Path}
  {parts : List PathPart} {folder spot : Spot} {a b : String}

/-- A path that does not lead through what it leads to.  It leads to the same spot when nothing lies
there. -/
def Direct (t : FileTree) (p : Path) (spot : Spot) : Prop :=
  ((t.dropBelow spot).drop spot).resolveClosed p = .ok spot

instance (t : FileTree) (p : Path) (spot : Spot) : Decidable (Direct t p spot) :=
  inferInstanceAs (Decidable (_ = _))

/-- What a target must be like to be taken back after a change: its path does not lead through it,
and may have a separator behind a folder, but no dot; with a separator it asks for a folder, and no
other thing may lie there when it is removed. -/
structure Restorable (t : FileTree) (target : Path) (spot : Spot) (u : FileTree) : Prop where
  direct : Direct t target spot
  end_ : target.closing ≠ [.follow .here]
  room : t.item? spot = some .folder → (target.join "").check = .ok ()
  asks : target.closing = [] ∨ ∀ item, u.item? spot = some item → item = .folder

/-- A direct path is followed to its last name without what that name leads to. -/
theorem Direct.leads (direct : Direct t p (folder ++ [a])) (ordinary : t.Ordinary)
    (split : p.parts = parts ++ [.name a]) :
    Leads ((t.dropBelow (folder ++ [a])).drop (folder ++ [a])).item? parts folder := by
  have cleared : t.Cleared (folder ++ [a]) ((t.dropBelow (folder ++ [a])).drop (folder ++ [a])) :=
    cleared_dropBelow (by simp)
  have mem : .name a ∈ p.parts := by simp [split]
  obtain ⟨-, resolved⟩ := resolveClosed_eq_ok.mp direct
  obtain ⟨folder', leads, -⟩ := names_of_resolveFrom ((Path.parts_closed mem).trans split) resolved
  have names : Names _ p (folder' ++ [a]) := ⟨parts, a, folder', split, leads, rfl⟩
  have same := names.eq_of_vacant (cleared.ordinary ordinary) direct cleared.vacant
  obtain ⟨rfl, -⟩ := List.append_inj' same rfl
  exact leads

/-- A copy is made, and a listing is told of before that if there is a folder to copy. -/
theorem exists_copyAndTell {action : Action} (copied : Does (copyTree p q) w.files () u) :
    ∃ w', Does (copyAndTell action p q) w () w' ∧ w'.files = u := by
  have begun : Does (get : Job Option World World) w w w := does_get.mpr ⟨rfl, rfl⟩
  have copies : ∀ {v : World}, v.files = w.files →
      Does (onFiles ((copyTree p q).during action)) v () { v with files := u } := by
    intro v same
    refine Does.onFiles (does_during.mpr ?_)
    rw [same]
    exact copied
  by_cases lists : w.files.listsToCopy p q = true
  · obtain ⟨v, told⟩ := exists_tellListing w
    refine ⟨{ v with files := u }, begun.bind ?_, rfl⟩
    rw [if_pos lists]
    exact told.bind (copies (does_tellListing told).symm)
  · refine ⟨{ w with files := u }, begun.bind ?_, rfl⟩
    rw [if_neg lists]
    exact copies rfl

section Finish

variable (siblings : Siblings w.files target snapshot parts folder a b)
  (taken : Does (takeSnapshot target snapshot) w () before)

include siblings taken

/-- What lies where the snapshot is, if nothing was changed but the target. -/
theorem held_of_taken
    (elsewhere : ∀ other, ¬ folder ++ [a] <+: other → u.item? other = before.files.item? other)
    (names : List String) :
    u.item? (folder ++ [b] ++ names) = w.files.item? (folder ++ [a] ++ names) := by
  obtain ⟨_, -, -, apart, -, copied⟩ := taken_of_does siblings taken
  rw [elsewhere _ (not_below_of_ne apart names), copied.at_copy]

/-- A direct target and its snapshot are found beside each other whatever lies at their spots. -/
theorem leads_of_direct (direct : Direct w.files target (folder ++ [a]))
    (same : ∀ other, ¬ folder ++ [a] <+: other → ¬ folder ++ [b] <+: other →
      u.item? other = before.files.item? other) : Leads u.item? parts folder := by
  obtain ⟨free, cleared, reaches, -, -, copied⟩ := taken_of_does siblings taken
  have without : w.files.Cleared (folder ++ [a])
      ((w.files.dropBelow (folder ++ [a])).drop (folder ++ [a])) := cleared_dropBelow (by simp)
  refine Leads.meet without.sub cleared.sub (fun other item found found' => ?_)
    (direct.leads siblings.ordinary siblings.target_parts) reaches
  have there := without.sub found
  rw [without] at found
  rw [cleared] at found'
  split at found
  · cases found
  split at found'
  · cases found'
  · rename_i outside outside'
    rw [same other outside outside', copied.elsewhere other outside', there]

/-- The target asks for a folder at its end only if it is one. -/
theorem asks_of_taken (there : w.files.exists? target = true) :
    target.closing = [] ∨ w.files.item? (folder ++ [a]) = some .folder := by
  obtain ⟨item, -, old, -⟩ := find_of_taken there siblings taken
  have names : Names w.files.item? target (folder ++ [a]) :=
    ⟨parts, a, folder, siblings.target_parts, siblings.leads, rfl⟩
  rcases names.find_cases old with ⟨-, -, asks⟩ | ⟨⟨target, linked⟩, -⟩
  · exact asks.imp_right fun is_folder => by rw [(find_eq_ok.mp old).2, is_folder]
  · exact absurd linked (siblings.no_link target)

/-- All paths in the target and in the snapshot can be followed. -/
theorem passable_of_taken
    (same : ∀ names, u.item? (spot ++ names) = w.files.item? (folder ++ [a] ++ names)) :
    Passable u spot target ∧ Passable u spot snapshot := by
  obtain ⟨v, removes, copies⟩ := does_takeSnapshot taken
  obtain ⟨leads, -, there, cleared, -, -⟩ := copies_of_replaced siblings.ordinary siblings.leads
    siblings.target_parts siblings.snapshot_parts siblings.no_link removes copies
  have apart : a ≠ b := by
    rintro rfl
    rw [cleared.vacant] at there
    cases there
  have old : ∀ names, v.item? (folder ++ [a] ++ names) = u.item? (spot ++ names) := fun names => by
    rw [cleared, if_neg (not_below_of_ne apart.symm names), same]
  obtain ⟨item, found⟩ := find_of_copyTree ⟨parts, a, folder, siblings.target_parts, leads, rfl⟩
    (fun target linked => siblings.no_link target (cleared.sub linked)) copies
  obtain ⟨passable, passable', -⟩ := followable_of_copyTree (cleared.ordinary siblings.ordinary)
    found ⟨parts, b, folder, siblings.snapshot_parts, leads, rfl⟩ copies
  exact ⟨fun names ne some => passable names ne (by rwa [old]),
    fun names ne some => passable' names ne (by rwa [old])⟩

/-! ### The steps that remain -/

/-- The snapshot can be removed if its path leads to it. -/
theorem exists_snapshotRemoved (ordinary : u.Ordinary)
    (elsewhere : ∀ other, ¬ folder ++ [a] <+: other → u.item? other = before.files.item? other)
    (leads : Leads (u.dropBelow (folder ++ [b])).item? parts folder) :
    ∃ v, Does (removeTree snapshot) u () v := by
  obtain ⟨-, -, short⟩ := leads_of_taken siblings taken
  obtain ⟨item, there⟩ := Option.isSome_iff_exists.mp siblings.there
  have held := held_of_taken siblings taken elsewhere []
  rw [List.append_nil, List.append_nil, there] at held
  obtain ⟨v, removed, -⟩ := removeTree_does ordinary
    ⟨parts, b, folder, siblings.snapshot_parts, leads, rfl⟩ short (by simp [siblings.plain]) held
    (.inl siblings.plain)
  exact ⟨v, removed⟩

/-- A target that can be taken back can be removed, whatever the change made of it. -/
theorem exists_targetRemoved
    (restorable : Restorable w.files target (folder ++ [a]) t) (ordinary : t.Ordinary)
    (elsewhere : ∀ other, ¬ folder ++ [a] <+: other →
      t.item? other = before.files.item? other) :
    ∃ u, Does (removeTree target) t () u ∧ t.Cleared (folder ++ [a]) u := by
  obtain ⟨-, short, -⟩ := leads_of_taken siblings taken
  have leads : Leads (t.dropBelow (folder ++ [a])).item? parts folder :=
    leads_of_direct siblings taken restorable.direct fun other outside _ => by
      rw [item?_dropBelow, if_neg fun below => outside below.1, elsewhere other outside]
  exact removeTree_clears ordinary ⟨parts, a, folder, siblings.target_parts, leads, rfl⟩ short
    restorable.end_ restorable.asks

/-- It can be copied back to where it was removed. -/
theorem exists_copiedBack (there : w.files.exists? target = true)
    (restorable : Restorable w.files target (folder ++ [a]) v) (ordinary : t.Ordinary)
    (vacant : t.item? (folder ++ [a]) = none)
    (elsewhere : ∀ other, ¬ folder ++ [a] <+: other →
      t.item? other = before.files.item? other) :
    ∃ u, Does (copyTree snapshot target) t () u ∧ u.Ordinary ∧
      ∀ other, ¬ folder ++ [a] <+: other → u.item? other = before.files.item? other := by
  obtain ⟨-, short, short'⟩ := leads_of_taken siblings taken
  obtain ⟨item, no_link, old, -⟩ := find_of_taken there siblings taken
  have old_item : w.files.item? (folder ++ [a]) = some item := (find_eq_ok.mp old).2
  have held := held_of_taken siblings taken elsewhere
  have held_item := held []
  rw [List.append_nil, List.append_nil, old_item] at held_item
  have leads : Leads t.item? parts folder :=
    leads_of_direct siblings taken restorable.direct fun other outside _ => elsewhere other outside
  have found : t.find .entry snapshot = .ok (folder ++ [b], item) :=
    Names.find_eq ⟨parts, b, folder, siblings.snapshot_parts, leads, rfl⟩ short' held_item no_link
      (.inl siblings.plain) (by simp)
  have asks := asks_of_taken siblings taken there
  rw [old_item, Option.some_inj] at asks
  have closing : target.closing = [] ∨ item = .folder ∧ target.closing = [.close] := by
    rcases target.closing_cases with plain | close | here
    · exact .inl plain
    · exact .inr ⟨asks.resolve_left (by simp [close]), close⟩
    · exact absurd here restorable.end_
  obtain ⟨passable, passable'⟩ := passable_of_taken siblings taken held
  obtain ⟨u, copies⟩ := exists_copyTree ordinary found
    ⟨parts, a, folder, siblings.target_parts, leads, rfl⟩ vacant
    ⟨passable', passable, ⟨short, closing, fun folder => restorable.room (folder ▸ old_item)⟩⟩
  obtain ⟨-, -, -, -, ordinary', restored⟩ := copyTree_copies ordinary (.refl _) leads
    siblings.snapshot_parts siblings.target_parts
    (fun target linked => no_link target (Option.some.inj (held_item.symm.trans linked))) copies
  exact ⟨u, copies, ordinary', fun other outside =>
    (restored.elsewhere other outside).trans (elsewhere other outside)⟩

/-- What is done to take a target back can be done. -/
theorem exists_restored (there : w.files.exists? target = true)
    (restorable : Restorable w.files target (folder ++ [a]) t) (ordinary : t.Ordinary)
    (elsewhere : ∀ other, ¬ folder ++ [a] <+: other →
      t.item? other = before.files.item? other) :
    ∃ x y z, Does (removeTree target) t () x ∧ Does (copyTree snapshot target) x () y ∧
      Does (removeTree snapshot) y () z := by
  obtain ⟨x, removed, gone⟩ := exists_targetRemoved siblings taken restorable ordinary elsewhere
  have elsewhere_x : ∀ other, ¬ folder ++ [a] <+: other →
      x.item? other = before.files.item? other := fun other outside => by
    rw [gone, if_neg outside, elsewhere other outside]
  obtain ⟨y, copied, ordinary_y, elsewhere_y⟩ := exists_copiedBack siblings taken there restorable
    (gone.ordinary ordinary) gone.vacant elsewhere_x
  have leads : Leads (y.dropBelow (folder ++ [b])).item? parts folder :=
    leads_of_direct siblings taken restorable.direct fun other outside outside' => by
      rw [item?_dropBelow, if_neg fun below => outside' below.1, elsewhere_y other outside]
  obtain ⟨z, cleared⟩ := exists_snapshotRemoved siblings taken ordinary_y elsewhere_y leads
  exact ⟨x, y, z, removed, copied, cleared⟩

/-! ### The ends of a transaction -/

/-- **A target can be kept**, if the path of the snapshot leads to it. -/
theorem exists_keepTarget (ordinary : after.files.Ordinary)
    (elsewhere : ∀ other, ¬ folder ++ [a] <+: other →
      after.files.item? other = before.files.item? other)
    (leads : Leads (after.files.dropBelow (folder ++ [b])).item? parts folder) :
    ∃ w', Does (keepTarget snapshot) after .kept w' := by
  obtain ⟨v, removed⟩ := exists_snapshotRemoved siblings taken ordinary elsewhere leads
  have removed : Does (onFiles (removeTree snapshot))
      { after with printed := keptLine :: after.printed } () _ := Does.onFiles removed
  exact ⟨_, Does.say.bind (removed.bind (does_pure.mpr ⟨rfl, rfl⟩))⟩

/-- **A target can be taken back**, whatever the change made of it, if its path does not lead
through it. -/
theorem exists_restoreTarget (there : w.files.exists? target = true)
    (restorable : Restorable w.files target (folder ++ [a]) after.files)
    (ordinary : after.files.Ordinary)
    (elsewhere : ∀ other, ¬ folder ++ [a] <+: other →
      after.files.item? other = before.files.item? other) :
    ∃ w', Does (restoreTarget target snapshot) after .restored w' := by
  obtain ⟨x, y, z, removed, copies, clears⟩ :=
    exists_restored siblings taken there restorable ordinary elsewhere
  obtain ⟨v, copied_back, rfl⟩ : ∃ v,
      Does (copyAndTell (.restoreSnapshot snapshot.text) snapshot target)
        { after with files := x, printed := restoredLine :: after.printed } () v ∧ v.files = y :=
    exists_copyAndTell copies
  have removed : Does (onFiles (removeTree target))
      { after with printed := restoredLine :: after.printed } () _ := Does.onFiles removed
  exact ⟨_, Does.say.bind (removed.bind (copied_back.bind (clears.onFiles.bind
    (Does.tellNow.bind (does_pure.mpr ⟨rfl, rfl⟩)))))⟩

end Finish

end ClassNaming
