import ClassNaming.Proofs.Files.WholeCopy

/-!
# What a failed removal or copy leaves

A removal that fails may have emptied the folder that it was to remove, and a copy that fails may
have been made in part.  Neither has touched anything but what lies at and below the spot that it
worked on.

What lies at the spots of a tree is all that counts for this, and for what a path leads to.

## Main Results

* `elsewhere_of_unremoved` - what a removal leaves that fails
* `elsewhere_of_uncopied` - what a copy leaves that fails
* `find_congr` - what a path leads to depends on what lies at the spots
-/

namespace ClassNaming

open FileTree

variable {t u v : FileTree} {p q : Path} {spot other origin copy : Spot} {item : Item} {f : Failure}

/-! ### Removals -/

/-- A removal that fails has done nothing, or it has emptied a folder. -/
theorem fails_removeTree (fails : Fails (removeTree p) t f u) :
    t = u ∨ ∃ s, t.find .entry p = .ok (s, .folder) ∧ t.dropBelow s = u := by
  simp only [removeTree, fails_bind, does_get, fails_get, false_or] at fails
  obtain ⟨_, _, ⟨rfl, rfl⟩, fails⟩ := fails
  split at fails
  · exact absurd fails fails_pure
  · obtain ⟨e, fails, -⟩ := fails_filing.mp fails
    exact fails_removeAll fails
  · obtain ⟨e, fails, -⟩ := fails_filing.mp fails
    exact .inl (fails_removeFile fails).1

theorem FileTree.item?_dropBelow_of_not (outside : ¬ spot <+: other) :
    (t.dropBelow spot).item? other = t.item? other := by
  rw [item?_dropBelow, if_neg fun below => outside below.1]

section Removal

variable (names : Names t.item? p spot) (plain : p.closing = [])

include names plain

/-- **A removal that fails changes nothing elsewhere**, if nothing is asked for behind the last name
of the path. -/
theorem elsewhere_of_unremoved (fails : Fails (removeTree p) t f u) (outside : ¬ spot <+: other) :
    u.item? other = t.item? other := by
  rcases fails_removeTree fails with rfl | ⟨s, found, rfl⟩
  · rfl
  · obtain rfl := names.eq_of_entry plain (find_eq_ok.mp found).1
    exact item?_dropBelow_of_not outside

/-- One that succeeds takes things away, and nothing elsewhere. -/
theorem reduced_of_removed (ordinary : t.Ordinary) (does : Does (removeTree p) t () u) :
    u.Ordinary ∧ Sub u.item? t.item? ∧
      ∀ other, ¬ spot <+: other → u.item? other = t.item? other := by
  obtain ⟨parts, name, folder, split, -, -⟩ := id names
  rcases removeTree_cases split ordinary does with
    ⟨-, rfl⟩ | ⟨s, names', -, cleared⟩ | ⟨s, found, rfl, -⟩
  · exact ⟨ordinary, .refl _, fun _ _ => rfl⟩
  · obtain rfl := names.unique names'
    exact ⟨cleared.ordinary ordinary, cleared.sub, fun other outside => by
      rw [cleared, if_neg outside]⟩
  · obtain rfl := names.eq_of_entry plain (find_eq_ok.mp found).1
    exact ⟨ordinary.dropBelow s, dropBelow_sub s, fun _ => item?_dropBelow_of_not⟩

end Removal

/-! ### Copies -/

section Copy

variable (names : Names t.item? q copy) (ordinary : t.Ordinary)

include names ordinary

/-- A file that cannot be copied may have been made. -/
theorem elsewhere_of_uncopiedFile {e : IoError} (missing : ∃ e, t.find .entry q = .error e)
    (fails : Fails (copyFile p q) t e u) (outside : ¬ copy <+: other) :
    u.item? other = t.item? other := by
  simp only [copyFile, fails_bind] at fails
  obtain read | ⟨_, _, read, write | ⟨_, v, write, fails⟩⟩ := fails
  · rw [(fails_readFile read).1]
  · obtain ⟨-, rfl⟩ := does_readFile.mp read
    rw [(fails_writeFile write).1]
  · obtain ⟨-, rfl⟩ := does_readFile.mp read
    obtain ⟨-, -, -, rfl⟩ := writeFile_names names ordinary missing write
    -- The file was made with no content, and that is all.
    have same : t.put copy (.file .empty) = u := by
      rcases fails with read | ⟨_, _, read, write⟩
      · exact (fails_readFile read).1
      · obtain ⟨-, rfl⟩ := does_readFile.mp read
        exact (fails_writeFile write).1
    rw [← same, item?_put names.ne_root, if_neg]
    rintro rfl
    exact outside (List.prefix_refl _)

end Copy

/-- A listed item that cannot be copied may have been made. -/
theorem NextEntry.elsewhere {init : List String} {last : String}
    (next : NextEntry t p q init last item origin copy) (ordinary : t.Ordinary)
    (fails : Fails (copyEntry p q ⟨init ++ [last], item.kind⟩) t f u) (outside : ¬ copy <+: other) :
    u.item? other = t.item? other := by
  have destination : (ListedItem.mk (init ++ [last]) item.kind).destination q
      = q.below (init ++ [last]) := by
    rw [ListedItem.destination, if_neg (by simp)]
  unfold copyEntry at fails
  rw [destination] at fails
  cases item with
  | folder =>
    obtain ⟨e, fails, -⟩ := fails_filing.mp fails
    rw [fails_createFolders next.destination ordinary fails]
  | file content =>
    obtain ⟨e, fails, -⟩ := fails_filing.mp fails
    exact elsewhere_of_uncopiedFile next.destination ordinary (next.destination.missing next.vacant)
      fails fun below => outside ((List.prefix_append _ _).trans below)
  | link target => rw [fails_copyLink fails]

/-- Listed items are copied one after the other, up to one that cannot be copied. -/
theorem Copying.elsewhere_of_fails {before after : List (Spot × Item)}
    (whole : t.itemsBelow origin = before ++ after)
    (state : Copying t origin copy (before.map fun listed => listed.1.drop origin.length) v)
    (ordinary : t.Ordinary) (free : t.item? copy = none) (source : Leads t.item? p.parts origin)
    (destination : Names t.item? q copy)
    (fails : Fails ((after.map fun listed =>
      ⟨listed.1.drop origin.length, listed.2.kind⟩ : List ListedItem).forM
        (copyEntry p q)) v f u)
    (outside : ¬ copy <+: other) : u.item? other = t.item? other := by
  induction after generalizing before v with
  | nil => exact absurd fails fails_pure
  | cons listed after ih =>
    obtain ⟨spot, item⟩ := listed
    obtain ⟨init, last, rfl, there, above, fresh⟩ := Copying.next_listed ordinary whole
    have next := state.next ordinary free source destination there above fresh
    rcases fails_bind.mp fails with first | ⟨_, middle, first, rest⟩
    · dsimp only at first
      rw [List.drop_left] at first
      exact (next.elsewhere state.ordinary first outside).trans (state.elsewhere other outside)
    · dsimp only at first
      rw [List.drop_left] at first
      have copied := state.entry next there first
      have done : Copying t origin copy
          ((before ++ [(origin ++ (init ++ [last]), item)]).map fun listed =>
            listed.1.drop origin.length) middle := by
        simpa using copied
      exact ih (whole.trans (List.append_cons _ _ _)) done rest

/-- A folder that cannot be copied may have been copied in part. -/
theorem elsewhere_of_uncopiedFolder (names : Names t.item? q copy) (ordinary : t.Ordinary)
    (found : t.find .entry p = .ok (origin, .folder)) (vacant : t.item? copy = none)
    (fails : Fails (copyItem p q .folder) t f u) (outside : ¬ copy <+: other) :
    u.item? other = t.item? other := by
  rcases fails_bind.mp fails with listed | ⟨entries, _, listed, fails⟩
  · rw [(fails_listNow listed).1]
  simp only [listNow, does_bind, does_get, does_demand] at listed
  obtain ⟨_, _, ⟨rfl, rfl⟩, listed, rfl⟩ := listed
  obtain ⟨⟨_, no⟩, -⟩ | ⟨-, rfl⟩ := listing_cases found (by simp) listed
  · cases no
  -- The folder itself comes first.
  have joined := names.congr Path.parts_join_empty
  rcases fails_bind.mp fails with first | ⟨_, started, first, rest⟩
  · obtain ⟨e, first, -⟩ := fails_filing.mp first
    rw [fails_createFolders joined ordinary first]
  · rcases createFolders_names joined ordinary (does_filing.mp first) with
      ⟨found', -⟩ | ⟨short, end_, vacant, rfl⟩
    · obtain ⟨e, missing⟩ : ∃ e, t.find .entry q = .error e := names.missing vacant
      obtain ⟨found', there'⟩ := names.found_of_isFolder_join ordinary found'
      cases missing.symm.trans there'
    · have put : t.Put copy .folder (t.put copy .folder) := put_of_put names.ne_root
      have begun := Copying.begun ordinary (joined.ordinary_put ordinary short vacant put)
        (find_eq_ok.mp found).2 vacant put
      have whole : t.itemsBelow origin = [] ++ t.itemsBelow origin := rfl
      exact begun.elsewhere_of_fails whole ordinary vacant
        (leads_of_find (find_content_of_entry found (by simp))) names rest outside

/-- **A copy that fails changes nothing elsewhere.** -/
theorem elsewhere_of_uncopied (names : Names t.item? q copy) (ordinary : t.Ordinary)
    (fails : Fails (copyTree p q) t f u) (outside : ¬ copy <+: other) :
    u.item? other = t.item? other := by
  cases there : t.item? copy with
  | some item =>
    obtain ⟨f', fails'⟩ := fails_copyTree_of_occupied (p := p) ordinary
      (.inr ⟨copy, names, by rw [there]; rfl⟩)
    rw [(fails.unique fails').2]
  | none =>
    have missing : ∃ e, t.find .entry q = .error e := names.missing there
    rcases fails_copyTree_cases missing fails with ⟨-, rfl⟩ | ⟨s, item, found, fails⟩
    · rfl
    cases item with
    | link target => rw [fails_copyLink fails]
    | file content =>
      obtain ⟨e, fails, -⟩ := fails_filing.mp fails
      exact elsewhere_of_uncopiedFile names ordinary missing fails outside
    | folder => exact elsewhere_of_uncopiedFolder names ordinary found there fails outside

/-! ### Trees with the same items -/

section Same

variable (same : ∀ spot, t.item? spot = u.item? spot)

include same

theorem FileTree.find_congr (aim : Aim) (p : Path) : t.find aim p = u.find aim p := by
  have advances : t.advance aim = u.advance aim := by
    funext spot steps
    induction steps generalizing spot with
    | nil => rfl
    | cons step rest ih =>
      rcases step with (_ | _ | _ | name) | _ <;> simp only [advance, ih, same]
  have resolves : t.resolveFrom aim = u.resolveFrom aim := by
    funext links
    induction links with
    | zero => rfl
    | succ links next =>
      funext spot steps
      rw [resolveFrom, resolveFrom, advances, next]
  have items : t.itemAt = u.itemAt := by
    funext found
    cases found with
    | error e => rfl
    | ok spot => rw [itemAt, itemAt, same]
  rw [find, find, resolve, resolve, resolves, items]

theorem Followable.congr (followable : Followable t origin item p q) :
    Followable u origin item p q where
  source := fun names ne there => followable.source names ne (by rwa [same])
  destination := fun names ne there => followable.destination names ne (by rwa [same])
  made := followable.made

end Same

end ClassNaming
