import ClassNaming.Proofs.Files.Contents
import ClassNaming.Proofs.Files.Copy

/-!
# Laws of removals and copies that can be made

What a path names can be removed, unless the path leads through it.  And what was copied can be
copied back: the paths that were followed for the copy are not too long, and those that are followed
for the way back are the same ones.

## Main Definitions

* `Passable` - the paths below a path that a copy follows
* `Followable` - all paths that a copy follows

## Main Results

* `removeTree_does` - a removal
* `followable_of_copyTree` - what a copy that was made tells of its paths
* `exists_copyTree` - a copy
-/

namespace ClassNaming

open FileTree

variable {t u : FileTree} {p q : Path} {spot other origin copy : Spot} {item : Item}
  {content : ByteArray}

/-! ### Removals -/

namespace FileTree

/-- Nothing is below a spot that was cleared. -/
theorem itemsBelow_dropBelow : (t.dropBelow spot).itemsBelow spot = [] := by
  rw [List.eq_nil_iff_forall_not_mem]
  rintro ⟨other, item⟩ mem
  obtain ⟨below, there⟩ := mem_itemsBelow.mp mem
  rw [item?_dropBelow, if_pos below] at there
  cases there

/-- Where separators at the end do not count, a path leads to the spot that it names. -/
theorem Names.resolveClosed_eq (names : Names t.item? p spot) (short : p.Short)
    (end_ : p.closing ≠ [.follow .here]) : t.resolveClosed p = .ok spot := by
  obtain ⟨name, mem⟩ := names.mem_parts
  have parts := Path.parts_closed mem
  have closing := Path.closing_closed mem
  rw [if_neg end_] at closing
  refine resolveClosed_eq_ok.mpr ⟨short.checked, ?_⟩
  exact (names.congr parts).resolveFrom_plain closing (by
    rw [Path.fileName?, parts]
    exact short.size)

/-- An empty folder can be removed. -/
theorem removeFolder_does (names : Names t.item? p spot) (short : p.Short)
    (end_ : p.closing ≠ [.follow .here]) (there : t.item? spot = some .folder)
    (empty : t.itemsBelow spot = []) : Does (removeFolder p) t () (t.drop spot) := by
  have found : t.itemAt (t.resolveClosed p) = .ok (spot, .folder) :=
    itemAt_eq_ok.mpr ⟨names.resolveClosed_eq short end_, there⟩
  have ⟨parts, name, _, split, _, _⟩ := names
  have ends := Path.fileName?_of_parts split
  obtain ⟨name', mem⟩ := names.mem_parts
  have plain : p.closed.closing = [] := by rw [Path.closing_closed mem, if_neg end_]
  simp [removeFolder, found, Path.isEmpty_trimIdle mem, Path.wantsFolder_of_plain plain, ends,
    empty]

end FileTree

/-- What a path names can be removed, if the path does not lead through it.  Only a folder can be
asked for behind the name. -/
theorem removeTree_does (ordinary : t.Ordinary) (names : Names (t.dropBelow spot).item? p spot)
    (short : p.Short) (end_ : p.closing ≠ [.follow .here]) (there : t.item? spot = some item)
    (asks : p.closing = [] ∨ item = .folder) :
    ∃ u, Does (removeTree p) t () u ∧ t.Cleared spot u := by
  have names' := names.mono (dropBelow_sub spot)
  have begun : Does (get : Job Id FileTree FileTree) t t t := does_get.mpr ⟨rfl, rfl⟩
  by_cases folder : item = .folder
  case neg =>
    have plain := asks.resolve_right folder
    have found : t.find .entry p = .ok (spot, item) :=
      find_eq_ok.mpr ⟨names'.resolve_plain plain short, there⟩
    have gone := removeFile_does names' plain short there folder
    refine ⟨t.drop spot, begun.bind ?_,
      ordinary.cleared_drop names.ne_root (by simp [there, folder])⟩
    rw [found]
    cases item with
    | folder => exact absurd rfl folder
    | file content => exact does_filing.mpr gone
    | link target => exact does_filing.mpr gone
  case pos =>
    subst folder
    have found : t.find .entry p = .ok (spot, .folder) :=
      names'.find_eq short there (by simp) asks (by simp)
    have kept : (t.dropBelow spot).item? spot = some .folder := by
      rw [item?_dropBelow, if_neg (by simp), there]
    have gone := removeFolder_does names short end_ kept itemsBelow_dropBelow
    refine ⟨(t.dropBelow spot).drop spot, begun.bind ?_, cleared_dropBelow names.ne_root⟩
    rw [found]
    refine does_filing.mpr ?_
    simp only [removeAll, does_bind, does_get, does_lift]
    refine ⟨t, t, ⟨rfl, rfl⟩, (spot, .folder), t, ⟨found, rfl⟩, ?_⟩
    exact .bind (a := ()) (does_set.mpr rfl) (does_tryCatch.mpr (.inl gone))

/-- So can whatever lies where a path says, be it nothing at all. -/
theorem removeTree_clears (ordinary : t.Ordinary) (names : Names (t.dropBelow spot).item? p spot)
    (short : p.Short) (end_ : p.closing ≠ [.follow .here])
    (asks : p.closing = [] ∨ ∀ item, t.item? spot = some item → item = .folder) :
    ∃ u, Does (removeTree p) t () u ∧ t.Cleared spot u := by
  cases there : t.item? spot with
  | some item =>
    exact removeTree_does ordinary names short end_ there (asks.imp_right (· item there))
  | none =>
    obtain ⟨e, missing⟩ : ∃ e, t.find .entry p = .error e :=
      (names.mono (dropBelow_sub spot)).missing there
    have begun : Does (get : Job Id FileTree FileTree) t t t := does_get.mpr ⟨rfl, rfl⟩
    refine ⟨t, begun.bind ?_, fun other => ?_⟩
    · rw [missing]
      exact does_pure.mpr ⟨rfl, rfl⟩
    · split
      · rename_i below
        by_cases same : other = spot
        · rw [same, there]
        · exact ordinary.vacant_below (by simp [there]) below same
      · rfl

/-! ### Paths that are followed -/

/-- All paths below a path that lead to what lies below a spot can be followed. -/
def Passable (t : FileTree) (spot : Spot) (p : Path) : Prop :=
  ∀ names, names ≠ [] → (t.item? (spot ++ names)).isSome → (p.below names).check = .ok ()

/-- It is enough to look at the items that are listed below the spot. -/
theorem passable_iff : Passable t spot p ↔
    ∀ listed ∈ t.itemsBelow spot, (p.below (listed.1.drop spot.length)).check = .ok () := by
  constructor
  · rintro passable ⟨other, item⟩ mem
    obtain ⟨⟨⟨names, rfl⟩, ne⟩, there⟩ := mem_itemsBelow.mp mem
    rw [List.drop_left]
    exact passable names (by simpa using ne) (by rw [there]; rfl)
  · intro all names ne some
    obtain ⟨item, there⟩ := Option.isSome_iff_exists.mp some
    have listed : (spot ++ names, item) ∈ t.itemsBelow spot :=
      mem_itemsBelow.mpr ⟨⟨List.prefix_append _ _, by simpa using ne⟩, there⟩
    have checked := all _ listed
    rwa [List.drop_left] at checked

instance : Decidable (Passable t spot p) := decidable_of_iff _ passable_iff.symm

/-- A path by which something is found is one that can be followed. -/
theorem checked_of_find {aim : Aim} (found : t.find aim p = .ok (spot, item)) :
    p.check = .ok () :=
  (resolve_eq_ok.mp (find_eq_ok.mp found).1).1

/-- So is one at which a folder was ensured. -/
theorem checked_of_ensureFolder (does : Does (ensureFolder p) t () u) : p.check = .ok () := by
  rw [ensureFolder, does_tryCatch] at does
  rcases does with does | ⟨e, _, -, does⟩
  · obtain ⟨s, resolved, -⟩ := does_createFolder.mp does
    exact (resolveClosed_eq_ok.mp resolved).1
  · simp only [does_bind, does_get, does_ite, does_throw, does_pure] at does
    obtain ⟨_, _, ⟨rfl, rfl⟩, does⟩ := does
    split at does
    · exact does.elim
    · rename_i there
      obtain ⟨s, found⟩ := isFolder_iff.mp (by simpa using there)
      exact checked_of_find found

/-- So is one at which folders were created. -/
theorem checked_of_createFolders (does : Does (createFolders p) t () u) : p.check = .ok () := by
  rw [createFolders] at does
  generalize p.parts.length = above at does
  cases above with
  | zero => exact checked_of_ensureFolder does
  | succ above =>
    rw [createFoldersUpTo, does_tryCatch] at does
    rcases does with does | ⟨e, _, -, does⟩
    · exact checked_of_ensureFolder does
    · split at does
      · obtain ⟨_, _, -, does⟩ := does_bind.mp does
        exact checked_of_ensureFolder does
      · exact absurd does does_throw

/-- A listed item was copied, so the path of the copy was followed, and that of the item, too,
unless the item is a folder. -/
theorem checked_of_copyEntry {e : ListedItem} (ne : e.names ≠ [])
    (does : Does (copyEntry p q e) t () u) :
    (q.below e.names).check = .ok () ∧ (e.kind ≠ .folder → (p.below e.names).check = .ok ()) := by
  have destination : e.destination q = q.below e.names := by
    rw [ListedItem.destination, if_neg (by simpa using ne)]
  unfold copyEntry at does
  rw [destination] at does
  obtain ⟨names, kind⟩ := e
  cases kind with
  | folder => exact ⟨checked_of_createFolders (does_filing.mp does), fun no => absurd rfl no⟩
  | file =>
    obtain ⟨emptied, content, _, read, write, -⟩ := does_copyFile (does_filing.mp does)
    obtain ⟨⟨s, found⟩, -⟩ := does_readFile.mp read
    obtain ⟨s', resolved, -⟩ := does_writeFile.mp write
    exact ⟨(resolve_eq_ok.mp resolved).1, fun _ => checked_of_find found⟩
  | link =>
    simp only [copyLink, does_bind, does_filing, does_readLink] at does
    obtain ⟨target, _, ⟨⟨s, found⟩, rfl⟩, does⟩ := does
    obtain ⟨s', resolved, -⟩ := does_createLink does
    exact ⟨(resolveClosed_eq_ok.mp resolved).1, fun _ => checked_of_find found⟩

/-- Every folder of a listing was looked into. -/
theorem checked_of_listing {entries : List ListedItem} (listed : t.listing p = .ok entries)
    {e : ListedItem} (mem : e ∈ entries) (ne : e.names ≠ []) (folder : e.kind = .folder) :
    (e.path p).check = .ok () := by
  have alone : ∀ {kind : ItemKind}, entries ≠ [⟨[], kind⟩] := by
    rintro kind rfl
    rw [List.mem_singleton.mp mem] at ne
    exact ne rfl
  unfold listing at listed
  split at listed
  · exact absurd (Except.ok.inj listed).symm alone
  split at listed
  · cases listed
  · cases listed
  · dsimp only at listed
    split at listed
    · cases listed
    · rename_i free
      rw [← Except.ok.inj listed] at mem
      rcases List.mem_cons.mp mem with rfl | mem
      · exact absurd rfl ne
      · unfold barred? at free
        rw [List.findSome?_eq_none_iff] at free
        have open_ := free e (List.mem_filter.mpr ⟨mem, decide_eq_true folder⟩)
        split at open_
        · cases open_
        · rename_i checked
          exact checked
  · exact absurd (Except.ok.inj listed).symm alone

/-- All paths that a copy follows can be followed. -/
structure Followable (t : FileTree) (origin : Spot) (item : Item) (p q : Path) : Prop where
  source : Passable t origin p
  destination : Passable t origin q
  made : Made item q

instance : Decidable (Followable t origin item p q) :=
  decidable_of_iff (Passable t origin p ∧ Passable t origin q ∧ Made item q)
    ⟨fun ⟨source, destination, made⟩ => ⟨source, destination, made⟩,
      fun ⟨source, destination, made⟩ => ⟨source, destination, made⟩⟩

/-- **Whatever was copied was reached by its path**, and so was the copy. -/
theorem followable_of_copyTree (ordinary : t.Ordinary)
    (found : t.find .entry p = .ok (origin, item)) (names : Names t.item? q copy)
    (does : Does (copyTree p q) t () u) : Followable t origin item p q := by
  obtain ⟨made, -⟩ := copyTree_copied ordinary found names does
  obtain ⟨-, s, item', found', does⟩ := does_copyTree does
  cases found.symm.trans found'
  have there := (find_eq_ok.mp found).2
  by_cases folder : item = .folder
  case neg =>
    -- Nothing lies below what is no folder.
    have no_folder : t.item? origin ≠ some .folder := by
      rw [there]
      exact fun same => folder (Option.some.inj same)
    have vacant : ∀ names, names ≠ [] → ¬ (t.item? (origin ++ names)).isSome := by
      intro names ne
      rw [ordinary.vacant_below no_folder (List.prefix_append _ _) (by simpa using ne)]
      simp
    exact ⟨fun names ne some => absurd some (vacant names ne),
      fun names ne some => absurd some (vacant names ne), made⟩
  case pos =>
    subst folder
    obtain ⟨entries, listed, does⟩ := does_copyFolder.mp does
    have listed_all : ∀ names, names ≠ [] → (t.item? (origin ++ names)).isSome →
        ∃ e ∈ entries, e.names = names := by
      intro names ne some
      obtain ⟨item, there'⟩ := Option.isSome_iff_exists.mp some
      obtain ⟨⟨_, no⟩, -⟩ | ⟨-, rfl⟩ := listing_cases found (by simp) listed
      · cases no
      refine ⟨⟨names, item.kind⟩, List.mem_cons_of_mem _ (List.mem_map.mpr
        ⟨(origin ++ names, item),
          mem_itemsBelow.mpr ⟨⟨List.prefix_append _ _, ?_⟩, there'⟩, ?_⟩), rfl⟩
      · simpa using ne
      · simp
    refine ⟨fun names ne some => ?_, fun names ne some => ?_, made⟩
    · obtain ⟨e, mem, rfl⟩ := listed_all names ne some
      by_cases folder : e.kind = .folder
      · exact checked_of_listing listed mem ne folder
      · obtain ⟨v, v', copied⟩ := exists_of_does_forM does mem
        exact (checked_of_copyEntry ne copied).2 folder
    · obtain ⟨e, mem, rfl⟩ := listed_all names ne some
      obtain ⟨v, v', copied⟩ := exists_of_does_forM does mem
      exact (checked_of_copyEntry ne copied).1

/-! ### Copies -/

/-- **A folder can be created** where there is none, if the folder that it is to be in is there. -/
theorem createFolders_does (names : Names t.item? p spot) (short : p.Short)
    (end_ : p.closing ≠ [.follow .here]) (vacant : t.item? spot = none) :
    Does (createFolders p) t () (t.put spot .folder) := by
  have made : Does (ensureFolder p) t () (t.put spot .folder) :=
    does_tryCatch.mpr (.inl (does_createFolder.mpr
      ⟨spot, names.resolveClosed_eq short end_, vacant, rfl⟩))
  rw [createFolders]
  generalize p.parts.length = above
  cases above with
  | zero => exact made
  | succ above => exact does_tryCatch.mpr (.inl made)

section

variable (source : Names t.item? p spot) (plain : p.closing = []) (short : p.Short)
  (names : Names t.item? q other) (plain' : q.closing = []) (short' : q.Short)
  (vacant : t.item? other = none)

include source plain short names plain' short' vacant

/-- **A file can be copied** to a place where there is none. -/
theorem copyFile_does (there : t.item? spot = some (.file content)) :
    ∃ u, Does (copyFile p q) t () u := by
  have read := readFile_does source plain short there
  have emptied := writeFile_does names plain' short' ByteArray.empty (.inl vacant)
  have grown : Sub t.item? (t.put other (.file .empty)).item? := sub_put vacant
  have again := readFile_does (source.mono grown) plain short (grown there)
  have filled : (t.put other (.file .empty)).item? other = some (.file .empty) := by
    rw [item?_put names.ne_root, if_pos rfl]
  have written := writeFile_does (names.mono grown) plain' short' content (.inr ⟨_, filled⟩)
  exact ⟨_, read.bind (emptied.bind (again.bind written))⟩

/-- **A link can be copied** to such a place, too. -/
theorem copyLink_does {target : Path} (there : t.item? spot = some (.link target)) :
    ∃ u, Does (copyLink p q) t () u := by
  have found : t.find .entry p = .ok (spot, .link target) :=
    find_eq_ok.mpr ⟨source.resolve_plain plain short, there⟩
  obtain ⟨name, mem⟩ := names.mem_parts
  have made : Does (createLink target q) t () (t.put other (.link target)) := by
    simp [createLink, names.resolveClosed_eq short' (by rw [plain']; simp), vacant,
      Path.endsOpen_of_plain mem plain']
  exact ⟨_, (does_filing.mpr (does_readLink.mpr ⟨⟨spot, found⟩, rfl⟩)).bind
    (does_filing.mpr made)⟩

end

/-- What can be copied next is copied, if the paths of the item and of its copy can be followed. -/
theorem copyEntry_does {init : List String} {last : String}
    (next : NextEntry t p q init last item origin copy)
    (checked : (p.below (init ++ [last])).check = .ok ())
    (checked' : (q.below (init ++ [last])).check = .ok ()) :
    ∃ u, Does (copyEntry p q ⟨init ++ [last], item.kind⟩) t () u := by
  have short : ∀ {p : Path}, (p.below (init ++ [last])).check = .ok () →
      (p.below (init ++ [last])).Short := by
    refine fun checked => ⟨checked, fun name ends => ?_⟩
    obtain rfl := Option.some.inj ((Path.fileName?_below next.named).symm.trans ends)
    exact next.size
  have plain' : (q.below (init ++ [last])).closing = [] := by
    rw [Path.below_concat]
    exact Path.closing_join next.named
  have destination : (ListedItem.mk (init ++ [last]) item.kind).destination q
      = q.below (init ++ [last]) := by
    rw [ListedItem.destination, if_neg (by simp)]
  unfold copyEntry
  rw [destination]
  have there := next.there
  cases item with
  | folder =>
    exact ⟨_, does_filing.mpr (createFolders_does next.destination (short checked')
      (by rw [plain']; simp) next.vacant)⟩
  | file content =>
    obtain ⟨u, copied⟩ := copyFile_does next.source next.plain (short checked) next.destination
      plain' (short checked') next.vacant there
    exact ⟨u, does_filing.mpr copied⟩
  | link target =>
    exact copyLink_does next.source next.plain (short checked) next.destination plain'
      (short checked') next.vacant there

/-! ### Whole trees -/

/-- All listed items can be copied, one after the other. -/
theorem Copying.exists_entries {before after : List (Spot × Item)}
    (whole : t.itemsBelow origin = before ++ after)
    (state : Copying t origin copy (before.map fun listed => listed.1.drop origin.length) u)
    (ordinary : t.Ordinary) (free : t.item? copy = none) (source : Leads t.item? p.parts origin)
    (destination : Names t.item? q copy)
    (passable : Passable t origin p) (passable' : Passable t origin q) :
    ∃ u', Does ((after.map fun listed =>
      ⟨listed.1.drop origin.length, listed.2.kind⟩ : List ListedItem).forM
        (copyEntry p q)) u () u' := by
  induction after generalizing before u with
  | nil => exact ⟨u, does_pure.mpr ⟨rfl, rfl⟩⟩
  | cons listed after ih =>
    obtain ⟨other, item⟩ := listed
    obtain ⟨init, last, rfl, there, above', fresh'⟩ := Copying.next_listed ordinary whole
    have next := state.next ordinary free source destination there above' fresh'
    have some : (t.item? (origin ++ (init ++ [last]))).isSome := by rw [there]; rfl
    obtain ⟨middle, first⟩ := copyEntry_does next (passable _ (by simp) some)
      (passable' _ (by simp) some)
    have copied := state.entry next there first
    have done : Copying t origin copy
        ((before ++ [(origin ++ (init ++ [last]), item)]).map fun listed =>
          listed.1.drop origin.length) middle := by
      simpa using copied
    obtain ⟨u', rest⟩ := ih (whole.trans (List.append_cons _ _ _)) done
    refine ⟨u', Does.bind (a := ()) ?_ rest⟩
    dsimp only
    rw [List.drop_left]
    exact first

/-- A folder can be listed, if the paths below it can be followed. -/
theorem listing_does (found : t.find .entry p = .ok (spot, .folder))
    (passable : Passable t spot p) :
    t.listing p = .ok (⟨[], .folder⟩ :: t.entriesBelow spot) := by
  have found_content := find_content_of_entry found (by simp)
  have no_file : t.isFile p = false := by
    unfold isFile
    rw [found_content]
  have free : barred? p (t.entriesBelow spot) = none := by
    unfold barred?
    rw [List.findSome?_eq_none_iff]
    intro e mem
    obtain ⟨listed, inside, rfl⟩ := List.mem_map.mp (List.mem_filter.mp mem).1
    dsimp only [ListedItem.path]
    rw [passable_iff.mp passable listed inside]
  unfold listing
  rw [no_file, found, found_content]
  dsimp only
  rw [free]
  rfl

/-- **What a path leads to can be copied** to where nothing lies, if all paths can be followed. -/
theorem exists_copyTree (ordinary : t.Ordinary) (found : t.find .entry p = .ok (origin, item))
    (destination : Names t.item? q copy) (vacant : t.item? copy = none)
    (followable : Followable t origin item p q) : ∃ u, Does (copyTree p q) t () u := by
  obtain ⟨passable, passable', ⟨short', closing, joined⟩⟩ := followable
  obtain ⟨resolved, there⟩ := find_eq_ok.mp found
  have missing : ∃ e, t.find .entry q = .error e := destination.missing vacant
  unfold Does
  rw [ending_copyTree found missing]
  by_cases folder : item = .folder
  case neg =>
    obtain ⟨parts, above, name, split, leads, rfl, plain⟩ :=
      exists_names_of_find ordinary found folder
    have source : Names t.item? p (above ++ [name]) := ⟨parts, name, above, split, leads, rfl⟩
    have short := source.short resolved
    have plain' : q.closing = [] := closing.resolve_right fun asks => folder asks.1
    cases item with
    | folder => exact absurd rfl folder
    | file content =>
      obtain ⟨u, copied⟩ :=
        copyFile_does source plain short destination plain' short' vacant there
      exact ⟨u, does_filing.mpr copied⟩
    | link target => exact copyLink_does source plain short destination plain' short' vacant there
  case pos =>
    subst folder
    -- The folder itself comes first, at a path that ends with a separator.
    obtain ⟨name, mem⟩ := destination.mem_parts
    have names : Names t.item? (q.join "") copy := destination.congr Path.parts_join_empty
    have short : (q.join "").Short := ⟨joined rfl, fun last same =>
      short'.size last (by rwa [Path.fileName?, Path.parts_join_empty] at same)⟩
    have end_ : (q.join "").closing ≠ [.follow .here] := by
      rw [Path.closing_join_empty mem]
      rcases closing with plain | ⟨-, close⟩
      · simp [plain]
      · simp [close]
    have made := createFolders_does names short end_ vacant
    have put : t.Put copy .folder (t.put copy .folder) := put_of_put destination.ne_root
    have state := Copying.begun ordinary (names.ordinary_put ordinary short vacant put) there vacant
      put
    have whole : t.itemsBelow origin = [] ++ t.itemsBelow origin := rfl
    have source := leads_of_find (find_content_of_entry found (by simp))
    obtain ⟨u, rest⟩ :=
      state.exists_entries whole ordinary vacant source destination passable passable'
    exact ⟨u, does_copyFolder.mpr ⟨_, listing_does found passable,
      .bind (a := ()) (does_filing.mpr made) rest⟩⟩

end ClassNaming
