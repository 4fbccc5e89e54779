import ClassNaming.Proofs.Files.Copy
import ClassNaming.Proofs.Run.Sibling
import ClassNaming.Proofs.Run.World
import ClassNaming.Run.Transaction

/-!
# The course of a transaction

A transaction takes a snapshot of its target, has the target changed, and then keeps it or takes it
back.  Here each of these steps is told by what it does to the files, and by what is left when it
was done.  Only the change can go on for ever.

A target and its snapshot are siblings: the same parts lead to the folder that they are in.

## Main Definitions

* `TargetAt` - a file or a folder, in a tree that a disk can hold
* `Beside` - the names of a target and its snapshot, as they are computed
* `Siblings` - a target and its snapshot in their folder

## Main Results

* `taken_of_does` - a snapshot is a copy of the target
* `cleared_of_kept`, `cleared_of_restored` - what is left when the snapshot is removed
* `does_transact`, `fails_transact`, `goesOn_transact` - the steps of a transaction
-/

namespace ClassNaming

open FileTree

variable {α : Type} {w w' : World} {t u : FileTree} {f : Failure} {target snapshot p q : Path}
  {action : Action}

/-! ### Copying -/

/-- Copying is done as the files are copied. -/
theorem does_copyAndTell (does : Does (copyAndTell action p q) w () w') :
    Does (copyTree p q) w.files () w'.files := by
  simp only [copyAndTell, does_bind, does_get] at does
  obtain ⟨_, _, ⟨rfl, rfl⟩, does⟩ := does
  have copied : ∀ {v : World}, w.files = v.files →
      Does (onFiles ((copyTree p q).during action)) v () w' →
      Does (copyTree p q) w.files () w'.files := by
    rintro v same does
    obtain ⟨t, inner, rfl⟩ := does_onFiles.mp does
    rw [same]
    exact does_during.mp inner
  split at does
  · obtain ⟨_, v, told, does⟩ := does_bind.mp does
    exact copied (does_tellListing told) does
  · exact copied rfl does

/-- It fails as they do, in the course of the action. -/
theorem fails_copyAndTell (fails : Fails (copyAndTell action p q) w f w') :
    ∃ f', Fails (copyTree p q) w.files f' w'.files ∧ f'.during action = f := by
  simp only [copyAndTell, fails_bind, fails_get, does_get, false_or] at fails
  obtain ⟨_, _, ⟨rfl, rfl⟩, fails⟩ := fails
  have copied : ∀ {v : World}, w.files = v.files →
      Fails (onFiles ((copyTree p q).during action)) v f w' →
      ∃ f', Fails (copyTree p q) w.files f' w'.files ∧ f'.during action = f := by
    rintro v same fails
    obtain ⟨t, stopped, rfl⟩ := fails_onFiles.mp fails
    obtain ⟨f', inner, rfl⟩ := fails_during.mp stopped
    exact ⟨f', same ▸ inner, rfl⟩
  split at fails
  · rcases fails_bind.mp fails with told | ⟨_, v, told, fails⟩
    · exact absurd told fails_tellListing
    · exact copied (does_tellListing told) fails
  · exact copied rfl fails

/-- Copying comes to an end, whatever there is to copy. -/
@[simp] theorem not_goesOn_copyAndTell : ¬ GoesOn (copyAndTell action p q) w := by
  simp only [copyAndTell, goesOn_bind, goesOn_get, does_get, false_or]
  rintro ⟨_, _, ⟨rfl, rfl⟩, goesOn⟩
  split at goesOn <;> simp at goesOn

/-! ### The target and its snapshot -/

/-- Where a target lies, and where its snapshot is to lie: under their names in the folder that the
parent of the target leads to.  The target is a folder or a file, and no link. -/
structure TargetAt (t : FileTree) (target : Path) (spot copy : Spot) : Prop where
  ordinary : t.Ordinary
  beside : ∃ parent name folder, target.parent? = some parent ∧ target.fileName? = some name ∧
    (parent = ⟨""⟩ ∧ folder = [] ∨ t.find .content parent = .ok (folder, .folder)) ∧
    spot = folder ++ [name] ∧ copy = folder ++ [snapshotName (t.isFolder target) target]
  item : t.item? spot = some .folder ∨ ∃ content, t.item? spot = some (.file content)

/-- The path of a target ends in a name, under which it lies in a folder, and its snapshot is to lie
there under another name.  This can be computed. -/
def Beside (t : FileTree) (target parent : Path) (folder : Spot) (name other : String) : Prop :=
  target.parent? = some parent ∧ target.fileName? = some name ∧
    (parent = ⟨""⟩ ∧ folder = [] ∨ t.find .content parent = .ok (folder, .folder)) ∧
    snapshotName (t.isFolder target) target = other

instance (t : FileTree) (target parent : Path) (folder : Spot) (name other : String) :
    Decidable (Beside t target parent folder name other) :=
  inferInstanceAs (Decidable (_ ∧ _))

/-- So a target lies where it was found. -/
theorem Beside.targetAt {t : FileTree} {parent : Path} {folder : Spot} {name other : String}
    (beside : Beside t target parent folder name other) (ordinary : t.Ordinary)
    (item : t.item? (folder ++ [name]) = some .folder ∨
      ∃ content, t.item? (folder ++ [name]) = some (.file content)) :
    TargetAt t target (folder ++ [name]) (folder ++ [other]) where
  ordinary := ordinary
  beside := by
    obtain ⟨split, named, found, rfl⟩ := beside
    exact ⟨parent, name, folder, split, named, found, rfl, rfl⟩
  item := item

/-- What is known of a target and its snapshot when a transaction begins. -/
structure Siblings (t : FileTree) (target snapshot : Path) (parts : List PathPart) (folder : Spot)
    (a b : String) : Prop where
  ordinary : t.Ordinary
  leads : Leads t.item? parts folder
  target_parts : target.parts = parts ++ [.name a]
  snapshot_parts : snapshot.parts = parts ++ [.name b]
  plain : snapshot.closing = []
  apart : a ≠ b
  there : (t.item? (folder ++ [a])).isSome
  no_link : ∀ target, t.item? (folder ++ [a]) ≠ some (.link target)

/-- Different names in a folder lead to different spots. -/
theorem not_prefix_of_ne {folder : Spot} {a b : String} (apart : a ≠ b) :
    ¬ folder ++ [a] <+: folder ++ [b] := by
  rw [List.prefix_append_right_inj, List.cons_prefix_cons]
  exact fun both => apart both.1

/-- What lies below a name in a folder does not lie below another one. -/
theorem not_below_of_ne {folder : Spot} {a b : String} (apart : a ≠ b) (names : List String) :
    ¬ folder ++ [a] <+: folder ++ [b] ++ names := by
  rw [List.append_assoc, List.prefix_append_right_inj, List.singleton_append,
    List.cons_prefix_cons]
  exact fun both => apart both.1

/-- A target and its snapshot have different names in the same folder. -/
theorem TargetAt.siblings {spot copy : Spot} (at_ : TargetAt t target spot copy) :
    ∃ parts folder a b, Siblings t target (snapshotPath t target) parts folder a b ∧
      spot = folder ++ [a] ∧ copy = folder ++ [b] := by
  obtain ⟨parent, name, folder, found, ends, leads, rfl, rfl⟩ := at_.beside
  obtain ⟨parts, split, named⟩ := Path.exists_fileName ends
  obtain ⟨parent', found', spells⟩ := Path.exists_parent split
  cases found.symm.trans found'
  have named' : IsName (snapshotName (t.isFolder target) target) := isName_snapshotName named ends
  refine ⟨parts, folder, name, _, ⟨at_.ordinary, ?_, split, parts_snapshotPath split named',
    closing_snapshotPath split named', snapshotName_ne ends, ?_, ?_⟩, rfl, rfl⟩
  · rw [← spells.parts_eq]
    rcases leads with ⟨rfl, rfl⟩ | found
    · exact ⟨linkLimit, .done⟩
    · exact leads_of_find found
  · rcases at_.item with there | ⟨content, there⟩ <;> rw [there] <;> rfl
  · rcases at_.item with there | ⟨content, there⟩ <;> rw [there] <;> simp

/-! ### Taking the snapshot -/

variable {parts : List PathPart} {folder : Spot} {a b : String} {before after : World}
  {v : FileTree}

/-- To take a snapshot is to remove what is in the way and to copy the target. -/
theorem does_takeSnapshot (does : Does (takeSnapshot target snapshot) w () w') :
    ∃ u, Does (removeTree snapshot) w.files () u ∧
      Does (copyTree target snapshot) u () w'.files := by
  simp only [takeSnapshot, does_bind] at does
  obtain ⟨_, _, removes, _, copied, copies, said⟩ := does
  obtain ⟨u, removed, rfl⟩ := does_onFiles.mp removes
  have copies := does_copyAndTell copies
  rw [say, does_modify] at said
  rw [← said]
  exact ⟨u, removed, copies⟩

/-- Taking a snapshot comes to an end. -/
theorem not_goesOn_takeSnapshot : ¬ GoesOn (takeSnapshot target snapshot) w := by
  simp [takeSnapshot, say]

/-- If a snapshot cannot be taken, then files cannot be read or written. -/
theorem isIo_of_takeSnapshot (siblings : Siblings w.files target snapshot parts folder a b)
    (fails : Fails (takeSnapshot target snapshot) w f w') : f.IsIo := by
  simp only [takeSnapshot, fails_bind] at fails
  rcases fails with removes | ⟨_, _, removes, copies | ⟨_, _, -, said⟩⟩
  · obtain ⟨_, removes, -⟩ := fails_onFiles.mp removes
    exact isIo_of_removeTree removes
  · obtain ⟨u, removed, rfl⟩ := does_onFiles.mp removes
    obtain ⟨f', copied, rfl⟩ := fails_copyAndTell copies
    have missing := removeTree_vacates siblings.snapshot_parts siblings.ordinary removed
    exact (isIo_of_copyTree missing copied).during
  · exact absurd said fails_modify

/-- A snapshot that was taken is a copy of the target.  Its path does not lead through what lay
where the snapshot lies. -/
theorem taken_of_does (siblings : Siblings w.files target snapshot parts folder a b)
    (does : Does (takeSnapshot target snapshot) w () before) :
    ∃ u, w.files.Cleared (folder ++ [b]) u ∧ Leads u.item? parts folder ∧ a ≠ b ∧
      before.files.Ordinary ∧ w.files.Copied (folder ++ [a]) (folder ++ [b]) before.files := by
  obtain ⟨u, removes, copies⟩ := does_takeSnapshot does
  obtain ⟨leads, -, -, cleared, ordinary, copied⟩ := copies_of_replaced siblings.ordinary
    siblings.leads siblings.target_parts siblings.snapshot_parts siblings.no_link removes copies
  refine ⟨u, cleared, leads, siblings.apart, ordinary, fun names => ?_, fun other outside => ?_⟩
  · rw [copied.at_copy, cleared, if_neg (not_below_of_ne siblings.apart.symm names)]
  · rw [copied.elsewhere other outside, cleared, if_neg outside]

/-! ### Keeping and restoring -/

/-- To keep a target is to remove its snapshot. -/
theorem does_keepTarget {outcome : Outcome} (does : Does (keepTarget snapshot) w outcome w') :
    outcome = .kept ∧ Does (removeTree snapshot) w.files () w'.files := by
  simp only [keepTarget, does_bind, say, does_modify] at does
  obtain ⟨_, _, rfl, _, _, removes, done⟩ := does
  obtain ⟨u, removed, rfl⟩ := does_onFiles.mp removes
  obtain ⟨rfl, rfl⟩ := does_pure.mp done
  exact ⟨rfl, removed⟩

/-- Keeping a target comes to an end. -/
theorem not_goesOn_keepTarget : ¬ GoesOn (keepTarget snapshot) w := by
  simp [keepTarget, say]

/-- To take a target back is to remove it, to copy its snapshot there, and to remove the snapshot.
-/
theorem does_restoreTarget {outcome : Outcome}
    (does : Does (restoreTarget target snapshot) w outcome w') :
    outcome = .restored ∧ ∃ u v, Does (removeTree target) w.files () u ∧
      Does (copyTree snapshot target) u () v ∧ Does (removeTree snapshot) v () w'.files := by
  simp only [restoreTarget, does_bind, say, does_modify] at does
  obtain ⟨_, _, rfl, _, _, removes, _, copied, copies, _, _, clears, _, _, told, done⟩ := does
  obtain ⟨u, removed, rfl⟩ := does_onFiles.mp removes
  have copies := does_copyAndTell copies
  obtain ⟨v, cleared, rfl⟩ := does_onFiles.mp clears
  obtain ⟨rfl, rfl⟩ := does_pure.mp done
  simp only [onProgress, tell, does_within, does_modify] at told
  obtain ⟨_, -, rfl⟩ := told
  exact ⟨rfl, u, copied.files, removed, copies, cleared⟩

/-- Taking it back comes to an end. -/
theorem not_goesOn_restoreTarget : ¬ GoesOn (restoreTarget target snapshot) w := by
  simp [restoreTarget, say]

/-- Where the path of a snapshot leads to it, it has a way to the folder that the snapshot is in. -/
theorem Siblings.leads_of_resolve (siblings : Siblings w.files target snapshot parts folder a b)
    (found : t.resolve .entry snapshot = .ok (folder ++ [b])) :
    snapshot.Short ∧ Leads t.item? parts folder := by
  obtain ⟨folder', leads, names⟩ :=
    names_of_resolveFrom siblings.snapshot_parts (resolve_eq_ok.mp found).2
  have short := names.short found
  have same := (names.resolve_plain siblings.plain short).symm.trans found
  obtain ⟨rfl, -⟩ := List.append_inj' (Except.ok.inj same) rfl
  exact ⟨short, leads⟩

/-- After a change that went well the snapshot can be removed, if its path leads to it without
passing through it. -/
theorem cleared_of_kept (siblings : Siblings w.files target snapshot parts folder a b)
    (copied : w.files.Copied (folder ++ [a]) (folder ++ [b]) t)
    (apart : a ≠ b) (ordinary : u.Ordinary)
    (elsewhere : ∀ other, ¬ folder ++ [a] <+: other → u.item? other = t.item? other)
    (leads : (u.dropBelow (folder ++ [b])).resolve .entry snapshot = .ok (folder ++ [b]))
    (removes : Does (removeTree snapshot) u () v) : u.Cleared (folder ++ [b]) v := by
  have outside : ¬ folder ++ [a] <+: folder ++ [b] := not_prefix_of_ne apart
  obtain ⟨short, reaches⟩ := siblings.leads_of_resolve leads
  have names : Names (u.dropBelow (folder ++ [b])).item? snapshot (folder ++ [b]) :=
    ⟨parts, b, folder, siblings.snapshot_parts, reaches, rfl⟩
  refine removeTree_removes ordinary names siblings.plain short ?_ removes
  rw [elsewhere _ outside, copied.at_spot]
  exact siblings.there

/-- Once a target is taken back all is as it was when the snapshot had just been taken. -/
theorem item_eq_of_restored {s x : FileTree} (apart : a ≠ b)
    (copied : s.Copied (folder ++ [a]) (folder ++ [b]) t)
    (elsewhere : ∀ other, ¬ folder ++ [a] <+: other → u.item? other = t.item? other)
    (gone : u.Cleared (folder ++ [a]) v) (restored : v.Copied (folder ++ [b]) (folder ++ [a]) x)
    (other : Spot) : x.item? other = t.item? other := by
  by_cases inside : folder ++ [a] <+: other
  · obtain ⟨names, rfl⟩ := inside
    have outside : ¬ folder ++ [a] <+: folder ++ [b] ++ names := not_below_of_ne apart names
    rw [restored.at_copy, gone, if_neg outside, elsewhere _ outside, copied.at_copy,
      copied.elsewhere _ (not_below_of_ne apart.symm names)]
  · rw [restored.elsewhere other inside, gone, if_neg inside, elsewhere other inside]

/-- A target that is taken back from its snapshot is as it was, and so is everything else, save that
nothing lies where the snapshot was. -/
theorem cleared_of_restored {free x y : FileTree}
    (siblings : Siblings w.files target snapshot parts folder a b)
    (cleared : w.files.Cleared (folder ++ [b]) free) (reaches : Leads free.item? parts folder)
    (copied : w.files.Copied (folder ++ [a]) (folder ++ [b]) t) (apart : a ≠ b)
    (ordinary : u.Ordinary) (leads : Leads u.item? parts folder)
    (elsewhere : ∀ other, ¬ folder ++ [a] <+: other → u.item? other = t.item? other)
    (removes : Does (removeTree target) u () v) (copies : Does (copyTree snapshot target) v () x)
    (clears : Does (removeTree snapshot) x () y) : w.files.Cleared (folder ++ [b]) y := by
  have no_link : ∀ target, u.item? (folder ++ [b]) ≠ some (.link target) := by
    rw [elsewhere _ (not_prefix_of_ne apart), copied.at_spot]
    exact siblings.no_link
  obtain ⟨-, short, there, gone, ordinary', restored⟩ := copies_of_replaced ordinary leads
    siblings.snapshot_parts siblings.target_parts no_link removes copies
  have whole := item_eq_of_restored apart copied elsewhere gone restored
  have sub : Sub free.item? (x.dropBelow (folder ++ [b])).item? := by
    intro other item found
    rw [cleared] at found
    split at found
    · cases found
    · rename_i outside'
      rw [item?_dropBelow, if_neg fun below => outside' below.1, whole,
        copied.elsewhere other outside', found]
  have names : Names (x.dropBelow (folder ++ [b])).item? snapshot (folder ++ [b]) :=
    ⟨parts, b, folder, siblings.snapshot_parts, reaches.mono sub, rfl⟩
  have held : (x.item? (folder ++ [b])).isSome := by
    rw [whole, copied.at_spot]
    exact siblings.there
  have cleared' := removeTree_removes ordinary' names siblings.plain short held clears
  intro other
  rw [cleared']
  split
  · rfl
  · rename_i outside'
    rw [whole, copied.elsewhere other outside']

/-! ### The course of a transaction -/

/-- A transaction that comes to its end took the snapshot, had the target changed, and then kept it
or took it back. -/
theorem does_transact {change : Job Option World Bool} {outcome : Outcome}
    (there : w.files.exists? target = true) (does : Does (transact target change) w outcome w') :
    ∃ before answer after,
      Does (takeSnapshot target (snapshotPath w.files target)) w () before ∧
      Does change before answer after ∧
      if answer then Does (keepTarget (snapshotPath w.files target)) after outcome w'
      else Does (restoreTarget target (snapshotPath w.files target)) after outcome w' := by
  simp only [transact, does_bind, does_get] at does
  obtain ⟨_, _, ⟨rfl, rfl⟩, does⟩ := does
  rw [there, if_neg (by simp)] at does
  obtain ⟨_, before, taken, does⟩ := does_bind.mp does
  obtain ⟨answer, after, changed, does⟩ := does_bind.mp does
  exact ⟨before, answer, after, taken, changed, by simpa using does⟩

/-- One that fails did so in one of these steps. -/
theorem fails_transact {change : Job Option World Bool} (there : w.files.exists? target = true)
    (fails : Fails (transact target change) w f w') :
    Fails (takeSnapshot target (snapshotPath w.files target)) w f w' ∨
    ∃ before, Does (takeSnapshot target (snapshotPath w.files target)) w () before ∧
      (Fails change before f w' ∨ ∃ answer after, Does change before answer after ∧
        if answer then Fails (keepTarget (snapshotPath w.files target)) after f w'
        else Fails (restoreTarget target (snapshotPath w.files target)) after f w') := by
  simp only [transact, fails_bind, fails_get, does_get, false_or] at fails
  obtain ⟨_, _, ⟨rfl, rfl⟩, fails⟩ := fails
  rw [there, if_neg (by simp)] at fails
  rcases fails_bind.mp fails with fails | ⟨_, before, taken, fails⟩
  · exact .inl fails
  rcases fails_bind.mp fails with fails | ⟨answer, after, changed, fails⟩
  · exact .inr ⟨before, taken, .inl fails⟩
  · exact .inr ⟨before, taken, .inr ⟨answer, after, changed, by simpa using fails⟩⟩

/-- One that goes on for ever does so in the change. -/
theorem goesOn_transact {change : Job Option World Bool} (there : w.files.exists? target = true) :
    GoesOn (transact target change) w ↔
      ∃ before, Does (takeSnapshot target (snapshotPath w.files target)) w () before ∧
        GoesOn change before := by
  simp only [transact, goesOn_bind, goesOn_get, does_get, false_or]
  constructor
  · rintro ⟨_, _, ⟨rfl, rfl⟩, goesOn⟩
    rw [there, if_neg (by simp)] at goesOn
    rcases goesOn_bind.mp goesOn with goesOn | ⟨_, before, taken, goesOn⟩
    · exact absurd goesOn not_goesOn_takeSnapshot
    rcases goesOn_bind.mp goesOn with goesOn | ⟨answer, after, -, goesOn⟩
    · exact ⟨before, taken, goesOn⟩
    · split at goesOn
      · exact absurd goesOn not_goesOn_keepTarget
      · exact absurd goesOn not_goesOn_restoreTarget
  · rintro ⟨before, taken, forever⟩
    refine ⟨w, w, ⟨rfl, rfl⟩, ?_⟩
    rw [there, if_neg (by simp)]
    exact taken.bind_goesOn forever.bind

namespace OneFolder

/-- A tree with a file in a folder. -/
def tree : FileTree := (FileTree.empty.put ["w"] .folder).put ["w", "a"] (.file ⟨#[120]⟩)

def world : World := .ofFiles ⟨"/"⟩ tree

theorem isName_sample {name : String} (mem : name ∈ ["w", "a", "b", "w-backup"]) :
    IsName name := by
  simp only [List.mem_cons, List.not_mem_nil, or_false] at mem
  rcases mem with rfl | rfl | rfl | rfl <;> constructor <;> decide

theorem ordinary_tree : tree.Ordinary := by
  have folder : (FileTree.empty.put ([] ++ ["w"]) .folder).Ordinary :=
    ordinary_empty.put item?_root (isName_sample (by decide)) (by decide) (by decide)
  have file : ((FileTree.empty.put ["w"] .folder).put (["w"] ++ ["a"]) (.file ⟨#[120]⟩)).Ordinary :=
    folder.put (by decide) (isName_sample (by decide)) (by decide) (by decide)
  exact file

/-- The snapshot of the folder is to lie beside it, whichever path leads to the folder. -/
theorem beside : Beside tree ⟨"w"⟩ ⟨""⟩ [] "w" "w-backup" ∧
    Beside tree ⟨"w/../w"⟩ ⟨"w/.."⟩ [] "w" "w-backup" ∧
    Beside tree ⟨"w/."⟩ ⟨""⟩ [] "w" "w-backup" ∧ Beside tree ⟨"w/"⟩ ⟨""⟩ [] "w" "w-backup" := by
  decide

theorem targetAt_folder : TargetAt tree ⟨"w"⟩ ["w"] ["w-backup"] :=
  beside.1.targetAt ordinary_tree (.inl (by decide))

/-- The path may lead through the folder and back. -/
theorem targetAt_detour : TargetAt tree ⟨"w/../w"⟩ ["w"] ["w-backup"] :=
  beside.2.1.targetAt ordinary_tree (.inl (by decide))

theorem snapshotPath_folder : snapshotPath tree ⟨"w"⟩ = ⟨"w-backup"⟩ := by decide

end OneFolder

end ClassNaming
