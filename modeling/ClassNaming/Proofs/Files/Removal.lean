import ClassNaming.Files.Copy
import ClassNaming.Proofs.Files.Change
import ClassNaming.Proofs.Files.Found

/-!
# Laws of removing a tree

What a path names is removed with everything below it, or nothing lies there to begin with.  There
is a third way for a removal to succeed: the path may lead through what is below the folder that is
to be removed.  Then the folder is emptied and stays, and the path leads to nothing any more.

A path with a separator at its end may lead through a link at its last part, so that a folder
elsewhere is emptied; the folder itself is not removed then.

## Main Definitions

* `FileTree.Cleared` - a tree after something was removed with everything below it
* `Failure.IsIo` - a failure of reading or writing files

## Main Results

* `removeTree_cases` - what a removal that succeeds has done
* `removeTree_vacates` - after a removal that succeeds the path leads to nothing
* `isIo_of_removeTree` - removals fail for reasons of reading and writing only
-/

namespace ClassNaming

/-- A failure of reading or writing files. -/
def Failure.IsIo (f : Failure) : Prop :=
  (∃ e, f.cause = .io e) ∨ ∃ root path e, f.cause = .listing root path e

theorem Failure.IsIo.during {f : Failure} {action : Action} (io : f.IsIo) :
    (f.during action).IsIo := io

variable {t u : FileTree} {p : Path} {spot : Spot} {name : String} {parts : List PathPart}

theorem does_filing {α : Type} {action : Action} {job : FileJob α} {a : α} :
    Does (filing action job) t a u ↔ Does job t a u := by
  rw [filing, does_during, does_attempt]

theorem fails_filing {α : Type} {action : Action} {job : FileJob α} {f : Failure} :
    Fails (filing action job) t f u ↔ ∃ e, Fails job t e u ∧ f = ⟨[action], .io e⟩ := by
  simp only [filing, fails_during, fails_attempt]
  constructor
  · rintro ⟨_, ⟨e, fails, rfl⟩, rfl⟩
    exact ⟨e, fails, rfl⟩
  · rintro ⟨e, fails, rfl⟩
    exact ⟨_, ⟨e, fails, rfl⟩, rfl⟩

theorem isIo_of_filing {α : Type} {action : Action} {job : FileJob α} {f : Failure}
    (fails : Fails (filing action job) t f u) : f.IsIo := by
  obtain ⟨e, -, rfl⟩ := fails_filing.mp fails
  exact .inl ⟨e, rfl⟩

open FileTree

/-- A tree after what lay at a spot was removed, with everything below it. -/
def FileTree.Cleared (t : FileTree) (spot : Spot) (u : FileTree) : Prop :=
  ∀ other, u.item? other = if spot <+: other then none else t.item? other

theorem FileTree.Cleared.sub (cleared : t.Cleared spot u) : Sub u.item? t.item? := by
  intro other item there
  rw [cleared] at there
  split at there
  · cases there
  · exact there

theorem FileTree.Cleared.vacant (cleared : t.Cleared spot u) : u.item? spot = none := by
  rw [cleared, if_pos (List.prefix_refl _)]

/-- A tree stays ordinary when something is removed with everything below it. -/
theorem FileTree.Cleared.ordinary (cleared : t.Cleared spot u) (ordinary : t.Ordinary) :
    u.Ordinary := by
  intro other name there
  rw [cleared] at there ⊢
  split at there
  · cases there
  · rename_i outside
    rw [if_neg fun inside => outside (inside.trans (List.prefix_append _ _))]
    exact ordinary there

/-- What is in a folder is neither the folder nor above it. -/
theorem append_name_ne_of_prefix {folder : Spot} (above : spot <+: folder) (name : String) :
    folder ++ [name] ≠ spot := by
  rintro rfl
  have short := above.length_le
  rw [List.length_append, List.length_singleton] at short
  omega

/-- So it does when everything below a spot is removed. -/
theorem FileTree.Ordinary.dropBelow (ordinary : t.Ordinary) (spot : Spot) :
    (t.dropBelow spot).Ordinary := by
  intro other name there
  rw [item?_dropBelow] at there ⊢
  split at there
  · cases there
  · rename_i outside
    rw [if_neg]
    · exact ordinary there
    · rintro ⟨inside, -⟩
      exact outside ⟨inside.trans (List.prefix_append _ _), append_name_ne_of_prefix inside name⟩

/-- What is no folder is removed alone. -/
theorem FileTree.Ordinary.cleared_drop (ordinary : t.Ordinary) (ne : spot ≠ [])
    (no : t.item? spot ≠ some .folder) : t.Cleared spot (t.drop spot) := by
  intro other
  rw [item?_drop ne]
  by_cases same : other = spot
  · rw [if_pos same, if_pos (by rw [same])]
  · rw [if_neg same]
    split
    · rename_i below
      exact ordinary.vacant_below no below same
    · rfl

/-- A folder is removed after everything below it. -/
theorem FileTree.cleared_dropBelow (ne : spot ≠ []) :
    t.Cleared spot ((t.dropBelow spot).drop spot) := by
  intro other
  rw [item?_drop ne, item?_dropBelow]
  by_cases same : other = spot
  · rw [if_pos same, if_pos (by rw [same])]
  · rw [if_neg same]
    simp [same]

theorem does_removeTree (does : Does (removeTree p) t () u) :
    (∃ e, t.find .entry p = .error e) ∧ t = u ∨
    (∃ s, t.find .entry p = .ok (s, .folder)) ∧ Does (removeAll p) t () u ∨
    Does (removeFile p) t () u := by
  simp only [removeTree, does_bind, does_get] at does
  obtain ⟨_, _, ⟨rfl, rfl⟩, does⟩ := does
  split at does
  · rename_i e missing
    exact .inl ⟨⟨e, missing⟩, (does_pure.mp does).2⟩
  · rename_i s found
    exact .inr (.inl ⟨⟨s, found⟩, does_filing.mp does⟩)
  · exact .inr (.inr (does_filing.mp does))

/-- Removals fail for reasons of reading and writing only. -/
theorem isIo_of_removeTree {f : Failure} (fails : Fails (removeTree p) t f u) : f.IsIo := by
  simp only [removeTree, fails_bind, does_get, fails_get, false_or] at fails
  obtain ⟨_, _, ⟨rfl, rfl⟩, fails⟩ := fails
  split at fails
  · exact absurd fails fails_pure
  · exact isIo_of_filing fails
  · exact isIo_of_filing fails

/-- What is removed as a file is what the path names. -/
theorem cleared_of_removeFile (ordinary : t.Ordinary) (does : Does (removeFile p) t () u) :
    ∃ spot, Names t.item? p spot ∧ (t.item? spot).isSome ∧ t.Cleared spot u := by
  obtain ⟨s, item, found, no, rfl⟩ := does_removeFile does
  obtain ⟨parts, folder, name, split, leads, rfl, -⟩ := exists_names_of_find ordinary found no
  have names : Names t.item? p (folder ++ [name]) := ⟨parts, name, folder, split, leads, rfl⟩
  have there := (find_eq_ok.mp found).2
  refine ⟨_, names, by rw [there]; rfl, ordinary.cleared_drop names.ne_root ?_⟩
  rw [there]
  exact fun same => no (Option.some.inj same)

/-- An emptied folder that the path still leads to is removed, and it is what the path names. -/
theorem cleared_of_removeFolder (split : p.parts = parts ++ [.name name]) {s : Spot}
    (found : t.find .entry p = .ok (s, .folder))
    (does : Does (removeFolder p) (t.dropBelow s) () u) :
    ∃ spot, Names t.item? p spot ∧ (t.item? spot).isSome ∧ t.Cleared spot u := by
  have mem : .name name ∈ p.parts := by
    rw [split]
    exact List.mem_append_right _ List.mem_cons_self
  have closed : p.closed.parts = p.parts := Path.parts_closed mem
  obtain ⟨s', found', plain, rfl⟩ := does_removeFolder does
  obtain ⟨resolved, there⟩ := itemAt_eq_ok.mp found'
  obtain ⟨-, resolved⟩ := resolveClosed_eq_ok.mp resolved
  obtain ⟨folder, -, names⟩ := names_of_resolveFrom (closed.trans split) resolved
  obtain rfl : s' = folder ++ [name] := by
    rcases names.resolve_cases resolved with ⟨same, -⟩ | ⟨-, other⟩
    · exact same
    · exact absurd rfl (other plain)
  have named : Names t.item? p (folder ++ [name]) :=
    (names.mono (dropBelow_sub s)).congr closed.symm
  have before : t.item? (folder ++ [name]) = some .folder := dropBelow_sub s there
  -- The path leads to the folder as it did before, so that is the folder that was emptied.
  rcases named.find_cases found with ⟨rfl, -, -⟩ | ⟨⟨target, linked⟩, -⟩
  · exact ⟨_, named, by rw [before]; rfl, cleared_dropBelow named.ne_root⟩
  · rw [before] at linked
    cases linked

/-- What a removal that succeeds has done: nothing, where the path leads to nothing; or it removed
what the path names; or it emptied a folder, and the path led through that. -/
theorem removeTree_cases (split : p.parts = parts ++ [.name name]) (ordinary : t.Ordinary)
    (does : Does (removeTree p) t () u) :
    (∃ e, t.find .entry p = .error e) ∧ t = u ∨
    (∃ spot, Names t.item? p spot ∧ (t.item? spot).isSome ∧ t.Cleared spot u) ∨
    ∃ s, t.find .entry p = .ok (s, .folder) ∧ t.dropBelow s = u ∧
      u.itemAt (u.resolveClosed p) = .error .notFound := by
  rcases does_removeTree does with missing | ⟨⟨s, found⟩, does⟩ | does
  · exact .inl missing
  · obtain ⟨s', item, found', does⟩ := does_removeAll does
    cases found.symm.trans found'
    rcases does with ⟨no, -⟩ | ⟨-, does | fails⟩
    · exact absurd rfl no
    · exact .inr (.inl (cleared_of_removeFolder split found does))
    · obtain ⟨rfl, missing⟩ := fails_removeFolder fails
      exact .inr (.inr ⟨s, found, rfl, missing rfl⟩)
  · exact .inr (.inl (cleared_of_removeFile ordinary does))

/-- After a removal that succeeds the path leads to nothing. -/
theorem removeTree_vacates (split : p.parts = parts ++ [.name name]) (ordinary : t.Ordinary)
    (does : Does (removeTree p) t () u) : ∃ e, u.find .entry p = .error e := by
  rcases removeTree_cases split ordinary does with
    ⟨missing, rfl⟩ | ⟨spot, names, -, cleared⟩ | ⟨s, -, -, missing⟩
  · exact missing
  · cases found : u.find .entry p with
    | error e => exact ⟨e, rfl⟩
    | ok result =>
      obtain ⟨s, item⟩ := result
      obtain ⟨resolved, -⟩ := find_eq_ok.mp found
      obtain ⟨folder, -, names'⟩ := names_of_resolveFrom split (resolve_eq_ok.mp resolved).2
      obtain rfl := names.unique (names'.mono cleared.sub)
      rcases names'.find_cases found with ⟨-, there, -⟩ | ⟨⟨target, there⟩, -⟩
      · rw [cleared.vacant] at there
        cases there
      · rw [cleared.vacant] at there
        cases there
  · cases found : u.find .entry p with
    | error e => exact ⟨e, rfl⟩
    | ok result =>
      obtain ⟨s, item⟩ := result
      obtain ⟨resolved, -⟩ := find_eq_ok.mp found
      obtain ⟨folder, -, names⟩ := names_of_resolveFrom split (resolve_eq_ok.mp resolved).2
      obtain ⟨s', item', found'⟩ := names.find_closed found
      rw [missing] at found'
      cases found'

/-- What a plain path names is removed, if the path does not lead through it. -/
theorem removeTree_removes (ordinary : t.Ordinary) (names : Names (t.dropBelow spot).item? p spot)
    (plain : p.closing = []) (short : p.Short) (there : (t.item? spot).isSome)
    (does : Does (removeTree p) t () u) : t.Cleared spot u := by
  obtain ⟨item, there⟩ := Option.isSome_iff_exists.mp there
  have names' := names.mono (dropBelow_sub spot)
  have found : t.find .entry p = .ok (spot, item) :=
    find_eq_ok.mpr ⟨names'.resolve_plain plain short, there⟩
  have ⟨parts, name, _, split, _, _⟩ := names
  rcases removeTree_cases split ordinary does with
    ⟨⟨e, missing⟩, -⟩ | ⟨other, names'', -, cleared⟩ | ⟨s, found', rfl, missing⟩
  · rw [missing] at found
    cases found
  · obtain rfl := names'.unique names''
    exact cleared
  · cases found.symm.trans found'
    have here : (t.dropBelow spot).item? spot = some .folder := by
      rw [item?_dropBelow, if_neg fun below => below.2 rfl, there]
    obtain ⟨s', item', found''⟩ := names.find_closed (find_eq_ok.mpr
      ⟨names.resolve_plain plain short, here⟩)
    rw [missing] at found''
    cases found''

end ClassNaming
