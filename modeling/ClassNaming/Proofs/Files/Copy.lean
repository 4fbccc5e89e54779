import ClassNaming.Proofs.Files.Making

/-!
# Laws of copying a tree

A copy is made folder by folder: a listing comes to a folder before it comes to what is in it, so
there is always a folder to copy into.  What is copied is read from the tree as it becomes.  It is
what was there at first, since nothing but the copy changes, and the paths that lead to the original
and to the copy keep leading there: they pass through nothing that is added.

## Main Definitions

* `Copying` - the state of a copy of which some items are done
* `FileTree.Copied` - a copy of what lay at one spot lies at another one
* `FileTree.Made` - a path at which a copy can be made

## Main Results

* `Copying.entry`, `Copying.entries` - a step of the copy, and all of its steps
* `copyTree_copied` - a copy is exact
* `copyTree_copies` - so is one beside what is copied
* `copies_of_replaced` - and one in place of what was removed first
* `isIo_of_copyTree` - a copy fails for reasons of reading and writing only
-/

namespace ClassNaming

open FileTree

variable {t u v : FileTree} {p q : Path} {spot other origin copy folder : Spot} {item : Item}
  {parts : List PathPart} {a b : String}

/-! ### Listed items -/

/-- A listed item is put where the copy of its folder is. -/
theorem copyEntry_puts {names : List String} (ne : names ≠ []) (ordinary : t.Ordinary)
    (source : Names t.item? (p.below names) spot) (plain : (p.below names).closing = [])
    (there : t.item? spot = some item)
    (destination : Names t.item? (q.below names) other) (vacant : t.item? other = none)
    (does : Does (copyEntry p q ⟨names, item.kind⟩) t () u) : t.Put other item u := by
  have target : (ListedItem.mk names item.kind).destination q = q.below names := by
    rw [ListedItem.destination, if_neg (by simpa using ne)]
  unfold copyEntry at does
  rw [target] at does
  cases item with
  | folder =>
    rcases createFolders_names destination ordinary (does_filing.mp does) with
      ⟨found, -⟩ | ⟨-, -, -, rfl⟩
    · obtain ⟨s, found⟩ := isFolder_iff.mp found
      obtain ⟨e, missing⟩ : ∃ e, t.find .content (q.below names) = .error e :=
        destination.missing vacant
      rw [missing] at found
      cases found
    · exact put_of_put destination.ne_root
  | file content =>
    obtain ⟨-, -, -, content', there', put⟩ := copyFile_names source destination ordinary
      (by rw [there]; simp) (destination.missing vacant) (does_filing.mp does)
    rw [there] at there'
    cases there'
    exact put
  | link target =>
    obtain ⟨-, -, -, s, target', found, put⟩ := copyLink_names destination ordinary does
    rcases source.find_cases found with ⟨-, there', -⟩ | ⟨-, no⟩
    · cases there.symm.trans there'
      exact put
    · exact absurd rfl (no plain)

/-- A listed item that can be copied next: the paths of the item and of its copy name their spots,
and the copy is to come into a folder where nothing lies at its spot. -/
structure NextEntry (t : FileTree) (p q : Path) (init : List String) (last : String) (item : Item)
    (origin copy : Spot) : Prop where
  named : IsName last
  size : last.utf8ByteSize ≤ nameLimit
  source : Names t.item? (p.below (init ++ [last])) (origin ++ (init ++ [last]))
  there : t.item? (origin ++ (init ++ [last])) = some item
  destination : Names t.item? (q.below (init ++ [last])) (copy ++ (init ++ [last]))
  vacant : t.item? (copy ++ (init ++ [last])) = none
  folder : t.item? (copy ++ init) = some .folder

theorem NextEntry.plain {init : List String} {last : String}
    (next : NextEntry t p q init last item origin copy) :
    (p.below (init ++ [last])).closing = [] := by
  rw [Path.below_concat]
  exact Path.closing_join next.named

/-- A tree into which some of what lies at and below a spot was copied. -/
structure Copying (t : FileTree) (origin copy : Spot) (done : List (List String))
    (u : FileTree) : Prop where
  ordinary : u.Ordinary
  copied : ∀ names, names ∈ [] :: done → u.item? (copy ++ names) = t.item? (origin ++ names)
  vacant : ∀ names, names ∉ [] :: done → u.item? (copy ++ names) = none
  elsewhere : ∀ other, ¬ copy <+: other → u.item? other = t.item? other

namespace Copying

variable {done : List (List String)}

/-- Copying takes nothing away. -/
theorem sub (state : Copying t origin copy done u) (ordinary : t.Ordinary)
    (free : t.item? copy = none) : Sub t.item? u.item? := by
  intro other item there
  rw [state.elsewhere]
  · exact there
  · intro below
    by_cases same : other = copy
    · rw [same, free] at there
      cases there
    · rw [ordinary.vacant_below (by rw [free]; simp) below same] at there
      cases there

/-- A copy of a folder begins with the folder itself. -/
theorem begun (ordinary : t.Ordinary) (ordinary' : u.Ordinary)
    (there : t.item? origin = some .folder) (vacant : t.item? copy = none)
    (put : t.Put copy .folder u) : Copying t origin copy [] u := by
  refine ⟨ordinary', fun inner mem => ?_, fun inner no => ?_, fun other no => ?_⟩
  · rw [List.mem_singleton.mp mem, put, if_pos (List.append_nil _), List.append_nil, there]
  · have below : copy ++ inner ≠ copy := by simpa using no
    rw [put, if_neg below]
    exact ordinary.vacant_below (by rw [vacant]; simp) (List.prefix_append _ _) below
  · rw [put, if_neg]
    rintro rfl
    exact no (List.prefix_refl _)

/-- One more listed item is copied. -/
theorem put {names : List String} {u' : FileTree} (state : Copying t origin copy done u)
    (there : t.item? (origin ++ names) = some item) (put : u.Put (copy ++ names) item u')
    (ordinary : u'.Ordinary) : Copying t origin copy (done ++ [names]) u' := by
  refine ⟨ordinary, fun other mem => ?_, fun other mem => ?_, fun other no => ?_⟩
  · rw [put]
    by_cases same : other = names
    · rw [same, if_pos rfl, there]
    · rw [if_neg fun eq => same (List.append_cancel_left eq)]
      refine state.copied other ?_
      simpa [same] using mem
  · have not_same : other ≠ names := by
      rintro rfl
      simp at mem
    rw [put, if_neg fun eq => not_same (List.append_cancel_left eq)]
    exact state.vacant other fun inside => mem (by
      rw [← List.cons_append]
      exact List.mem_append_left _ inside)
  · rw [put, if_neg, state.elsewhere other no]
    rintro rfl
    exact no (List.prefix_append _ _)

/-- When the folder above a listed item was copied, the paths of the item and of its copy name their
spots, and the copy can come into a folder. -/
theorem next {init : List String} {last : String} (state : Copying t origin copy done u)
    (ordinary : t.Ordinary) (free : t.item? copy = none) (source : Leads t.item? p.parts origin)
    (destination : Names t.item? q copy) (there : t.item? (origin ++ (init ++ [last])) = some item)
    (above : init ∈ [] :: done) (fresh : init ++ [last] ∉ done) :
    NextEntry u p q init last item origin copy := by
  have sub : Sub t.item? u.item? := state.sub ordinary free
  have joined : origin ++ (init ++ [last]) = origin ++ init ++ [last] := by simp
  have inside : (t.item? (origin ++ (init ++ [last]))).isSome := by rw [there]; rfl
  obtain ⟨top, named, size⟩ := ordinary (joined ▸ inside)
  have root : t.item? origin = some .folder := ordinary.folder_above (by simp) inside
  -- In the copy, too, the item comes into a folder that is there by now.
  have top_copy : u.item? (copy ++ init) = some .folder := by rw [state.copied init above, top]
  have root_copy : u.item? copy = some .folder := by
    have same := state.copied [] List.mem_cons_self
    rwa [List.append_nil, List.append_nil, root] at same
  have leads := (destination.mono sub).leads state.ordinary root_copy
  exact ⟨named, size, (source.mono sub).names_below state.ordinary named (sub top), sub there,
    leads.names_below state.ordinary named top_copy, state.vacant _ (by simpa using fresh),
    top_copy⟩

/-- A listed item is copied when the folder above it was. -/
theorem entry {init : List String} {last : String} {u' : FileTree}
    (state : Copying t origin copy done u) (next : NextEntry u p q init last item origin copy)
    (there : t.item? (origin ++ (init ++ [last])) = some item)
    (does : Does (copyEntry p q ⟨init ++ [last], item.kind⟩) u () u') :
    Copying t origin copy (done ++ [init ++ [last]]) u' := by
  have puts := copyEntry_puts (by simp) state.ordinary next.source next.plain next.there
    next.destination next.vacant does
  refine state.put there puts ?_
  have joined : copy ++ (init ++ [last]) = copy ++ init ++ [last] := by simp
  have vacant := next.vacant
  rw [joined] at vacant puts
  exact state.ordinary.of_put next.folder next.named next.size vacant puts

/-- Of the items of a listing the next one lies in a folder that was listed before, and was not
listed before itself. -/
theorem next_listed {before after : List (Spot × Item)} (ordinary : t.Ordinary)
    (whole : t.itemsBelow origin = before ++ (spot, item) :: after) :
    ∃ init last, spot = origin ++ (init ++ [last]) ∧ t.item? spot = some item ∧
      (init ∈ [] :: before.map fun listed => listed.1.drop origin.length) ∧
      init ++ [last] ∉ before.map fun listed => listed.1.drop origin.length := by
  obtain ⟨init, last, rfl, there, above, fresh⟩ := itemsBelow_split ordinary whole
  refine ⟨init, last, rfl, there, ?_, fun mem => ?_⟩
  · rcases above with rfl | ⟨item', mem⟩
    · exact List.mem_cons_self
    · exact List.mem_cons_of_mem _ (List.mem_map.mpr ⟨_, mem, List.drop_left⟩)
  · obtain ⟨⟨other, item'⟩, mem, same⟩ := List.mem_map.mp mem
    obtain ⟨⟨⟨names, rfl⟩, -⟩, -⟩ := (mem_itemsBelow (t := t)).mp (by
      rw [whole]
      exact List.mem_append_left _ mem)
    obtain rfl : names = init ++ [last] := by simpa using same
    exact fresh item' mem

/-- All listed items are copied, one after the other. -/
theorem entries {before after : List (Spot × Item)} {u' : FileTree}
    (whole : t.itemsBelow origin = before ++ after)
    (state : Copying t origin copy (before.map fun listed => listed.1.drop origin.length) u)
    (ordinary : t.Ordinary) (free : t.item? copy = none) (source : Leads t.item? p.parts origin)
    (destination : Names t.item? q copy)
    (does : Does ((after.map fun listed =>
      ⟨listed.1.drop origin.length, listed.2.kind⟩ : List ListedItem).forM
        (copyEntry p q)) u () u') :
    Copying t origin copy ((t.itemsBelow origin).map fun listed => listed.1.drop origin.length)
      u' := by
  induction after generalizing before u with
  | nil =>
    obtain ⟨-, rfl⟩ := does_pure.mp does
    rw [whole, List.append_nil]
    exact state
  | cons listed after ih =>
    obtain ⟨_, middle, first, rest⟩ := does_bind.mp does
    obtain ⟨other, item⟩ := listed
    obtain ⟨init, last, rfl, there, above', fresh'⟩ := next_listed ordinary whole
    dsimp only at first
    rw [List.drop_left] at first
    have next := state.next ordinary free source destination there above' fresh'
    have copied := state.entry next there first
    have done : Copying t origin copy
        ((before ++ [(origin ++ (init ++ [last]), item)]).map fun listed =>
          listed.1.drop origin.length) middle := by
      simpa using copied
    exact ih (whole.trans (List.append_cons _ _ _)) done rest

end Copying

/-! ### Whole trees -/

/-- A tree after what lay at and below a spot was copied to another one, where nothing was. -/
structure FileTree.Copied (t : FileTree) (origin copy : Spot) (u : FileTree) : Prop where
  at_copy : ∀ names, u.item? (copy ++ names) = t.item? (origin ++ names)
  elsewhere : ∀ other, ¬ copy <+: other → u.item? other = t.item? other

theorem FileTree.Copied.at_spot (copied : t.Copied origin copy u) :
    u.item? copy = t.item? origin := by
  simpa using copied.at_copy []

/-- What was listed is all there was. -/
theorem Copying.copied_of_all (state : Copying t origin copy
    ((t.itemsBelow origin).map fun listed => listed.1.drop origin.length) u) :
    t.Copied origin copy u := by
  refine ⟨fun names => ?_, state.elsewhere⟩
  by_cases mem : names ∈ [] :: (t.itemsBelow origin).map fun listed =>
      listed.1.drop origin.length
  · exact state.copied names mem
  · rw [state.vacant names mem]
    cases there : t.item? (origin ++ names) with
    | none => rfl
    | some item =>
      rw [List.mem_cons, not_or] at mem
      refine absurd (List.mem_map.mpr ⟨(origin ++ names, item), ?_, List.drop_left⟩) mem.2
      exact mem_itemsBelow.mpr ⟨⟨List.prefix_append _ _, by simpa using mem.1⟩, there⟩

/-- How an item is copied once it is known that nothing is in the way. -/
def copyItem (source destination : Path) : Item → Job Id FileTree Unit
  | .link _ => copyLink source destination
  | .file _ => filing (.copyFile source.text destination.text) (copyFile source destination)
  | .folder => do (← listNow source).forM (copyEntry source destination)

theorem ending_copyTree (found : t.find .entry p = .ok (spot, item))
    (missing : ∃ e, t.find .entry q = .error e) :
    ending (copyTree p q) t = ending (copyItem p q item) t := by
  obtain ⟨e, missing⟩ := missing
  have begun : Does (get : Job Id FileTree FileTree) t t t := does_get.mpr ⟨rfl, rfl⟩
  have inspected : Does (filing (.inspect p.text) (inspect p)) t item t :=
    does_filing.mpr (does_inspect.mpr ⟨⟨spot, found⟩, rfl⟩)
  rw [copyTree, begun.ending_bind, missing, if_neg (by simp [Except.isOk, Except.toBool]),
    inspected.ending_bind]
  cases item <;> rfl

/-- A folder is copied by going through its listing. -/
theorem does_copyFolder : Does (copyItem p q .folder) t () u ↔
    ∃ entries, t.listing p = .ok entries ∧ Does (entries.forM (copyEntry p q)) t () u := by
  simp only [copyItem, listNow, does_bind, does_get, does_demand]
  constructor
  · rintro ⟨entries, _, ⟨_, _, ⟨rfl, rfl⟩, listed, rfl⟩, does⟩
    exact ⟨entries, listed, does⟩
  · rintro ⟨entries, listed, does⟩
    exact ⟨entries, t, ⟨t, t, ⟨rfl, rfl⟩, listed, rfl⟩, does⟩

/-- What a copy that succeeds has found. -/
theorem does_copyTree (does : Does (copyTree p q) t () u) :
    (∃ e, t.find .entry q = .error e) ∧ ∃ s item, t.find .entry p = .ok (s, item) ∧
      Does (copyItem p q item) t () u := by
  have whole := does
  simp only [copyTree, does_bind, does_get] at does
  obtain ⟨_, _, ⟨rfl, rfl⟩, does⟩ := does
  split at does
  case isTrue => simp at does
  case isFalse vacant =>
    have missing : ∃ e, t.find .entry q = .error e := by
      cases found : t.find .entry q with
      | error e => exact ⟨e, rfl⟩
      | ok found' => exact absurd (by rw [found]; rfl) vacant
    obtain ⟨item, _, inspected, -⟩ := does_bind.mp does
    obtain ⟨⟨s, found⟩, -⟩ := does_inspect.mp (does_filing.mp inspected)
    refine ⟨missing, s, item, found, ?_⟩
    rwa [Does, ending_copyTree found missing] at whole

theorem isIo_of_copyLink {f : Failure} (fails : Fails (copyLink p q) t f u) : f.IsIo := by
  simp only [copyLink, fails_bind] at fails
  rcases fails with fails | ⟨_, _, -, fails⟩
  · exact isIo_of_filing fails
  · exact isIo_of_filing fails

theorem isIo_of_copyEntry {e : ListedItem} {f : Failure} (fails : Fails (copyEntry p q e) t f u) :
    f.IsIo := by
  unfold copyEntry at fails
  dsimp only at fails
  split at fails
  · exact isIo_of_filing fails
  · exact isIo_of_filing fails
  · exact isIo_of_copyLink fails

theorem isIo_of_copyItem {f : Failure} (fails : Fails (copyItem p q item) t f u) : f.IsIo := by
  cases item with
  | link target => exact isIo_of_copyLink fails
  | file content => exact isIo_of_filing fails
  | folder =>
    simp only [copyItem, listNow, fails_bind, fails_get, does_get, false_or, fails_demand] at fails
    rcases fails with ⟨_, _, -, ⟨root, e⟩, -, rfl, -⟩ | ⟨_, _, -, fails⟩
    · exact .inr ⟨_, _, e, rfl⟩
    · obtain ⟨_, entry, _, _, -, -, fails⟩ := exists_of_fails_forM fails
      exact isIo_of_copyEntry fails

/-- Where something is in the way, no copy is begun. -/
theorem fails_copyTree_of_found {found : Spot × Item} (taken : t.find .entry q = .ok found) :
    Fails (copyTree p q) t (.ofCause (.copyTargetExists q.text)) t := by
  have begun : Does (get : Job Id FileTree FileTree) t t t := does_get.mpr ⟨rfl, rfl⟩
  refine begun.bind_fails ?_
  rw [taken, if_pos (by rfl)]
  exact Fails.bind (fails_fail.mpr ⟨rfl, rfl⟩)

/-- Where nothing is in the way, a copy fails because it finds nothing to be copied, or while it
copies what it found. -/
theorem fails_copyTree_cases {f : Failure} (missing : ∃ e, t.find .entry q = .error e)
    (fails : Fails (copyTree p q) t f u) :
    f.IsIo ∧ t = u ∨
      ∃ s item, t.find .entry p = .ok (s, item) ∧ Fails (copyItem p q item) t f u := by
  have whole := fails
  have ⟨e, nothing⟩ := missing
  simp only [copyTree, fails_bind, fails_get, does_get, false_or] at fails
  obtain ⟨_, _, ⟨rfl, rfl⟩, fails⟩ := fails
  rw [nothing, if_neg (by simp [Except.isOk, Except.toBool])] at fails
  rcases fails_bind.mp fails with stuck | ⟨item, _, inspected, -⟩
  · obtain ⟨e, stuck', -⟩ := fails_filing.mp stuck
    exact .inl ⟨isIo_of_filing stuck, fails_inspect stuck'⟩
  · obtain ⟨⟨s, found⟩, -⟩ := does_inspect.mp (does_filing.mp inspected)
    exact .inr ⟨s, item, found, by rwa [Fails, ending_copyTree found missing] at whole⟩

/-- Where nothing is in the way, copies fail for reasons of reading and writing only. -/
theorem isIo_of_copyTree {f : Failure} (missing : ∃ e, t.find .entry q = .error e)
    (fails : Fails (copyTree p q) t f u) : f.IsIo := by
  rcases fails_copyTree_cases missing fails with ⟨io, -⟩ | ⟨s, item, -, fails⟩
  · exact io
  · exact isIo_of_copyItem fails

/-- An item with nothing below it is copied when it is put where nothing was. -/
theorem FileTree.Put.copied (put : t.Put copy item u) (ordinary : t.Ordinary)
    (there : t.item? origin = some item) (no_folder : item ≠ .folder)
    (vacant : t.item? copy = none) : t.Copied origin copy u := by
  refine ⟨fun inner => ?_, fun other no => ?_⟩
  · cases inner with
    | nil => rw [put, if_pos (List.append_nil _), List.append_nil, there]
    | cons first rest =>
      have below : ∀ base : Spot, base ++ first :: rest ≠ base := fun base => by simp
      have no_folder' : t.item? origin ≠ some .folder := by
        rw [there]
        exact fun same => no_folder (Option.some.inj same)
      rw [put, if_neg (below _),
        ordinary.vacant_below (by rw [vacant]; simp) (List.prefix_append _ _) (below _),
        ordinary.vacant_below no_folder' (List.prefix_append _ _) (below _)]
  · rw [put, if_neg]
    rintro rfl
    exact no (List.prefix_refl _)

/-- What is put where a path says lies in a folder. -/
theorem FileTree.Names.ordinary_put (names : Names t.item? q copy) (ordinary : t.Ordinary)
    (short : q.Short) (vacant : t.item? copy = none) (put : t.Put copy item u) : u.Ordinary := by
  obtain ⟨parts, name, folder, split, ⟨left, way⟩, rfl⟩ := names
  exact ordinary.of_put (ordinary.folder_of_way item?_root way) (Path.isName_of_parts split)
    (short.size name (Path.fileName?_of_parts split)) vacant put

/-- What a copy tells of the path where it was made: that it could be followed, and asked for
nothing behind its last name, or for a folder that was made there. -/
structure FileTree.Made (item : Item) (q : Path) : Prop where
  short : q.Short
  closing : q.closing = [] ∨ item = .folder ∧ q.closing = [.close]
  joined : item = .folder → (q.join "").check = .ok ()

instance : Decidable (Made item q) :=
  decidable_of_iff (q.Short ∧ (q.closing = [] ∨ item = .folder ∧ q.closing = [.close]) ∧
      (item = .folder → (q.join "").check = .ok ()))
    ⟨fun ⟨short, closing, joined⟩ => ⟨short, closing, joined⟩,
      fun ⟨short, closing, joined⟩ => ⟨short, closing, joined⟩⟩

/-- A file or a link is copied when it is put where nothing was. -/
theorem copied_of_put (ordinary : t.Ordinary) (there : t.item? origin = some item)
    (no_folder : item ≠ .folder) (destination : Names t.item? q copy) (short : q.Short)
    (plain : q.closing = []) (vacant : t.item? copy = none) (put : t.Put copy item u) :
    Made item q ∧ t.item? copy = none ∧ u.Ordinary ∧ t.Copied origin copy u :=
  ⟨⟨short, .inl plain, fun folder => absurd folder no_folder⟩, vacant,
    destination.ordinary_put ordinary short vacant put, put.copied ordinary there no_folder vacant⟩

/-- A folder is made at the path with a separator at its end. -/
theorem FileTree.Names.made_of_join (names : Names t.item? q copy) (short : (q.join "").Short)
    (end_ : (q.join "").closing ≠ [.follow .here]) : Made .folder q := by
  obtain ⟨name, mem⟩ := names.mem_parts
  rw [Path.closing_join_empty mem] at end_
  refine ⟨⟨Path.check_of_join short.checked ?_, fun name ends => short.size name ?_⟩, ?_,
    fun _ => short.checked⟩
  · rintro rfl
    cases mem
  · rwa [Path.fileName?, Path.parts_join_empty]
  · rcases q.closing_cases with plain | close | here
    · exact .inl plain
    · exact .inr ⟨rfl, close⟩
    · exact absurd (if_pos here) end_

/-- **A copy that succeeds is exact**: what a path leads to lies where the other path says, with
everything below it, and nothing was there. -/
theorem copyTree_copied (ordinary : t.Ordinary) (found : t.find .entry p = .ok (origin, item))
    (destination : Names t.item? q copy) (does : Does (copyTree p q) t () u) :
    Made item q ∧ t.item? copy = none ∧ u.Ordinary ∧ t.Copied origin copy u := by
  obtain ⟨missing, s, item', found', does⟩ := does_copyTree does
  cases found.symm.trans found'
  have there := (find_eq_ok.mp found).2
  cases item with
  | link target =>
    obtain ⟨short, plain, vacant, s, target', found', put⟩ :=
      copyLink_names destination ordinary does
    cases found.symm.trans found'
    exact copied_of_put ordinary there (by simp) destination short plain vacant put
  | file content =>
    obtain ⟨parts, folder, name, split, leads, rfl, -⟩ :=
      exists_names_of_find ordinary found (by simp)
    have source : Names t.item? p (folder ++ [name]) := ⟨parts, name, folder, split, leads, rfl⟩
    obtain ⟨short, plain, vacant, content', there', put⟩ := copyFile_names source destination
      ordinary (by simp [there]) missing (does_filing.mp does)
    cases there.symm.trans there'
    exact copied_of_put ordinary there (by simp) destination short plain vacant put
  | folder =>
    obtain ⟨entries, listed, does⟩ := does_copyFolder.mp does
    obtain ⟨⟨_, no⟩, -⟩ | ⟨-, rfl⟩ := listing_cases found (by simp) listed
    · cases no
    obtain ⟨_, started, first, rest⟩ := does_bind.mp does
    have joined := destination.congr Path.parts_join_empty
    rcases createFolders_names joined ordinary (does_filing.mp first) with
      ⟨found', -⟩ | ⟨short, end_, vacant, rfl⟩
    · obtain ⟨e, missing⟩ := missing
      obtain ⟨found', there'⟩ := destination.found_of_isFolder_join ordinary found'
      cases missing.symm.trans there'
    · have put : t.Put copy .folder (t.put copy .folder) := put_of_put destination.ne_root
      have begun := Copying.begun ordinary (joined.ordinary_put ordinary short vacant put) there
        vacant put
      have source := leads_of_find (find_content_of_entry found (by simp))
      have whole : t.itemsBelow origin = [] ++ t.itemsBelow origin := rfl
      have all := begun.entries whole ordinary vacant source destination rest
      exact ⟨destination.made_of_join short end_, vacant, all.ordinary, all.copied_of_all⟩

/-- What a path names is what is copied, unless it is a link. -/
theorem find_of_copyTree (source : Names t.item? p spot)
    (no_link : ∀ target, t.item? spot ≠ some (.link target)) (does : Does (copyTree p q) t () u) :
    ∃ item, t.find .entry p = .ok (spot, item) := by
  obtain ⟨-, s, item, found, -⟩ := does_copyTree does
  rcases source.find_cases found with ⟨rfl, -⟩ | ⟨⟨target, linked⟩, -⟩
  · exact ⟨item, found⟩
  · exact absurd linked (no_link target)

/-- A copy that succeeds puts what the path names, with everything below it, where the other path
says, and nothing was there. -/
theorem copyTree_copies (ordinary : t.Ordinary) (sub : Sub t.item? v.item?)
    (leads : Leads v.item? parts folder) (source : p.parts = parts ++ [.name a])
    (destination : q.parts = parts ++ [.name b])
    (no_link : ∀ target, t.item? (folder ++ [a]) ≠ some (.link target))
    (does : Does (copyTree p q) t () u) :
    Leads t.item? parts folder ∧ p.Short ∧ (t.item? (folder ++ [a])).isSome ∧
      t.item? (folder ++ [b]) = none ∧ u.Ordinary ∧ t.Copied (folder ++ [a]) (folder ++ [b]) u := by
  obtain ⟨-, s, item, found, -⟩ := does_copyTree does
  obtain ⟨folder', leads', names⟩ :=
    names_of_resolveFrom source (resolve_eq_ok.mp (find_eq_ok.mp found).1).2
  obtain rfl := leads.unique (leads'.mono sub)
  obtain ⟨item, found⟩ := find_of_copyTree names no_link does
  obtain ⟨resolved, there⟩ := find_eq_ok.mp found
  exact ⟨leads', names.short resolved, by rw [there]; rfl,
    (copyTree_copied ordinary found ⟨parts, b, folder, destination, leads', rfl⟩ does).2⟩

/-- If what a path names is removed and then copied from another path into the same folder, then it
is as it is there. -/
theorem copies_of_replaced {w : FileTree} (ordinary : t.Ordinary)
    (leads : Leads t.item? parts folder) (source : p.parts = parts ++ [.name a])
    (destination : q.parts = parts ++ [.name b])
    (no_link : ∀ target, t.item? (folder ++ [a]) ≠ some (.link target))
    (removes : Does (removeTree q) t () u) (copies : Does (copyTree p q) u () w) :
    Leads u.item? parts folder ∧ p.Short ∧ (u.item? (folder ++ [a])).isSome ∧
      t.Cleared (folder ++ [b]) u ∧ w.Ordinary ∧ u.Copied (folder ++ [a]) (folder ++ [b]) w := by
  have names : Names t.item? q (folder ++ [b]) := ⟨parts, b, folder, destination, leads, rfl⟩
  have no_link' : Sub u.item? t.item? → ∀ target, u.item? (folder ++ [a]) ≠ some (.link target) :=
    fun sub target linked => no_link target (sub linked)
  rcases removeTree_cases destination ordinary removes with
    ⟨-, rfl⟩ | ⟨spot, names', -, cleared⟩ | ⟨s, found, rfl, -⟩
  · obtain ⟨leads', short, there, vacant, ordinary', copied⟩ :=
      copyTree_copies ordinary (.refl _) leads source destination no_link copies
    refine ⟨leads', short, there, fun other => ?_, ordinary', copied⟩
    split
    · rename_i below
      by_cases same : other = folder ++ [b]
      · rw [same, vacant]
      · exact ordinary.vacant_below (by rw [vacant]; simp) below same
    · rfl
  · obtain rfl := names.unique names'
    obtain ⟨leads', short, there, -, ordinary', copied⟩ :=
      copyTree_copies (cleared.ordinary ordinary) cleared.sub leads source destination
        (no_link' cleared.sub) copies
    exact ⟨leads', short, there, cleared, ordinary', copied⟩
  · -- The path led through what was emptied.  Then the source is gone, too, or the path still leads
    -- to the folder.
    have sub := dropBelow_sub (t := t) s
    obtain ⟨-, -, there, vacant, -, -⟩ :=
      copyTree_copies (ordinary.dropBelow s) sub leads source destination (no_link' sub) copies
    obtain ⟨item, before⟩ : ∃ item, t.item? (folder ++ [b]) = some item := by
      rcases names.find_cases found with ⟨-, there, -⟩ | ⟨⟨target, linked⟩, -⟩
      · exact ⟨_, there⟩
      · exact ⟨_, linked⟩
    rw [item?_dropBelow, before] at vacant
    split at vacant
    · rename_i below
      obtain ⟨inside, ne⟩ := below
      have above : s <+: folder := (List.prefix_concat_iff.mp inside).resolve_left ne.symm
      rw [item?_dropBelow, if_pos ⟨above.trans (List.prefix_append _ _),
        append_name_ne_of_prefix above a⟩] at there
      cases there
    · cases vacant

end ClassNaming
