import ClassNaming.Proofs.Files.Found
import ClassNaming.Proofs.Files.Removal

/-!
# Laws of what is made where a path says

A file, a link or a folder that is made where nothing lies is made at the spot that the path names,
though the way to say so differs.  A path to a file must end with the name; for a folder separators
may follow, and it may be asked for with a folder above it that is there already.  If a folder may
be there, then making it leaves the tree alone or puts the folder where nothing is.

## Main Definitions

* `Put` - an item lies at a spot, and all else is as before

## Main Results

* `Names.eq_of_vacant` - where something is made
* `writeFile_names`, `copyFile_names`, `copyLink_names` - files and links
* `createFolders_names`, `fails_createFolders` - folders
* `Names.found_of_isFolder_join` - a folder that is asked for with a separator
-/

namespace ClassNaming

open FileTree

variable {t u : FileTree} {p q : Path} {spot other : Spot} {item : Item} {content : ByteArray}

namespace FileTree

/-- A tree after an item was put at a spot. -/
def Put (t : FileTree) (spot : Spot) (item : Item) (u : FileTree) : Prop :=
  ∀ other, u.item? other = if other = spot then some item else t.item? other

theorem put_of_put (ne : spot ≠ []) : t.Put spot item (t.put spot item) := fun _ => item?_put ne

/-! ### Files -/

/-- A path to nothing. -/
theorem Names.missing {aim : Aim} (names : Names t.item? p spot)
    (vacant : t.item? spot = none) : ∃ e, t.find aim p = .error e := by
  cases found : t.find aim p with
  | error e => exact ⟨e, rfl⟩
  | ok result =>
    obtain ⟨s, item⟩ := result
    rcases names.find_cases found with ⟨-, there, -⟩ | ⟨⟨target, there⟩, -⟩
    · rw [vacant] at there
      cases there
    · rw [vacant] at there
      cases there

/-- What is made where nothing lies is asked for by its name. -/
theorem Names.closing_closed_of_vacant (names : Names t.item? p spot) (ordinary : t.Ordinary)
    (resolved : t.resolveClosed p = .ok other) (vacant : t.item? other = none) :
    p.closed.closing = [] := by
  obtain ⟨name, mem⟩ := names.mem_parts
  obtain ⟨-, resolved⟩ := resolveClosed_eq_ok.mp resolved
  by_contra asks
  have folder := ordinary.folder_of_closing (names.congr (Path.parts_closed mem)) asks resolved
  rw [vacant] at folder
  cases folder

/-- What is made where nothing lies is made at the spot that the path names. -/
theorem Names.eq_of_vacant (names : Names t.item? p spot) (ordinary : t.Ordinary)
    (resolved : t.resolveClosed p = .ok other) (vacant : t.item? other = none) : other = spot := by
  have plain := names.closing_closed_of_vacant ordinary resolved vacant
  obtain ⟨name, mem⟩ := names.mem_parts
  obtain ⟨-, resolved⟩ := resolveClosed_eq_ok.mp resolved
  have closed := names.congr (Path.parts_closed mem)
  rcases closed.resolve_cases resolved with ⟨same, -⟩ | ⟨-, elsewhere⟩
  · exact same
  · exact absurd rfl (elsewhere plain)

/-- Where nothing lies, no dot at the end of a path is followed. -/
theorem Names.end_of_vacant (names : Names t.item? p spot) (ordinary : t.Ordinary)
    (resolved : t.resolveClosed p = .ok other) (vacant : t.item? other = none) :
    p.closing ≠ [.follow .here] := by
  intro here
  have plain := names.closing_closed_of_vacant ordinary resolved vacant
  obtain ⟨name, mem⟩ := names.mem_parts
  rw [Path.closing_closed mem, if_pos here] at plain
  cases plain

/-- What leads somewhere where separators at the end do not count can be followed. -/
theorem Names.short_of_closed (names : Names t.item? p spot)
    (resolved : t.resolveClosed p = .ok other) : p.Short := by
  obtain ⟨checked, followed⟩ := resolveClosed_eq_ok.mp resolved
  obtain ⟨name, mem⟩ := names.mem_parts
  have parts := Path.parts_closed mem
  have size := (names.congr parts).size followed
  rw [Path.fileName?, parts] at size
  exact ⟨checked, size⟩

theorem readFile_names (names : Names t.item? p spot)
    (no_link : ∀ target, t.item? spot ≠ some (.link target))
    (does : Does (readFile p) t content u) : t.item? spot = some (.file content) := by
  obtain ⟨⟨s, found⟩, -⟩ := does_readFile.mp does
  rcases names.find_cases found with ⟨-, there, -⟩ | ⟨⟨target, linked⟩, -⟩
  · exact there
  · exact absurd linked (no_link target)

/-- A file is made at the spot that its path names, if the path leads to nothing. -/
theorem writeFile_names (names : Names t.item? p spot) (ordinary : t.Ordinary)
    (missing : ∃ e, t.find .entry p = .error e) (does : Does (writeFile p content) t () u) :
    p.Short ∧ p.closing = [] ∧ t.item? spot = none ∧ t.put spot (.file content) = u := by
  obtain ⟨s, resolved, no, rfl⟩ := does_writeFile.mp does
  have short := names.short resolved
  have plain : p.closing = [] := by
    by_contra asks
    exact no (ordinary.folder_of_closing names asks (resolve_eq_ok.mp resolved).2)
  have vacant : t.item? spot = none := by
    cases there : t.item? spot with
    | none => rfl
    | some item =>
      obtain ⟨e, missing⟩ := missing
      have found := find_eq_ok.mpr ⟨names.resolve_plain plain short, there⟩
      rw [missing] at found
      cases found
  rcases names.resolve_cases (resolve_eq_ok.mp resolved).2 with ⟨rfl, -⟩ | ⟨⟨target, linked⟩, -⟩
  · exact ⟨short, plain, vacant, rfl⟩
  · rw [vacant] at linked
    cases linked

/-- A copied file. -/
theorem copyFile_names (source : Names t.item? p spot) (names : Names t.item? q other)
    (ordinary : t.Ordinary)
    (no_link : ∀ target, t.item? spot ≠ some (.link target))
    (missing : ∃ e, t.find .entry q = .error e) (does : Does (copyFile p q) t () u) :
    q.Short ∧ q.closing = [] ∧ t.item? other = none ∧
      ∃ content, t.item? spot = some (.file content) ∧ t.Put other (.file content) u := by
  obtain ⟨emptied, content, content', read, write, read', write'⟩ := does_copyFile does
  obtain ⟨short, plain, vacant, rfl⟩ := writeFile_names names ordinary missing write
  have grown : Sub t.item? (t.put other (.file .empty)).item? := sub_put vacant
  have there := readFile_names source no_link read
  have kept : (t.put other (.file .empty)).item? spot = some (.file content) := grown there
  have there' := readFile_names (source.mono grown) (by rw [kept]; simp) read'
  obtain rfl : content = content' := by
    rw [kept] at there'
    cases there'
    rfl
  refine ⟨short, plain, vacant, content, there, fun spot' => ?_⟩
  -- The file is there by now, so it is written where it lies.
  obtain ⟨s, resolved, -, rfl⟩ := does_writeFile.mp write'
  have filled : (t.put other (.file .empty)).item? other = some (.file .empty) := by
    rw [item?_put names.ne_root, if_pos rfl]
  rcases (names.mono grown).resolve_cases (resolve_eq_ok.mp resolved).2 with
    ⟨rfl, -⟩ | ⟨⟨target, linked⟩, -⟩
  · rw [item?_put names.ne_root, item?_put names.ne_root]
    split <;> rfl
  · rw [filled] at linked
    cases linked

/-! ### Folders -/

theorem isFolder_iff : t.isFolder p = true ↔ ∃ s, t.find .content p = .ok (s, .folder) := by
  unfold isFolder
  split
  · rename_i s found
    exact ⟨fun _ => ⟨s, found⟩, fun _ => rfl⟩
  · rename_i no
    constructor
    · rintro ⟨⟩
    · rintro ⟨s, found⟩
      exact absurd found (no s)

/-- Making a folder that may be there leaves the tree alone, or puts the folder where nothing is. -/
theorem ensureFolder_names (names : Names t.item? p spot) (ordinary : t.Ordinary)
    (does : Does (ensureFolder p) t () u) :
    t.isFolder p = true ∧ t = u ∨ p.Short ∧ p.closing ≠ [.follow .here] ∧
      t.item? spot = none ∧ t.put spot .folder = u := by
  rw [ensureFolder, does_tryCatch] at does
  rcases does with does | ⟨e, _, fails, does⟩
  · obtain ⟨s, resolved, vacant, rfl⟩ := does_createFolder.mp does
    obtain rfl := names.eq_of_vacant ordinary resolved vacant
    exact .inr ⟨names.short_of_closed resolved, names.end_of_vacant ordinary resolved vacant,
      vacant, rfl⟩
  · obtain rfl := fails_createFolder fails
    simp at does
    exact .inl does.symm

theorem fails_ensureFolder {e : IoError} (fails : Fails (ensureFolder p) t e u) :
    t = u ∧ Fails (createFolder p) t e t ∧ t.isFolder p = false := by
  rw [ensureFolder, fails_tryCatch] at fails
  obtain ⟨e', _, refused, fails⟩ := fails
  obtain rfl := fails_createFolder refused
  simp at fails
  obtain ⟨no, rfl, rfl⟩ := fails
  exact ⟨rfl, refused, no⟩

/-- Making a folder that is there leaves the tree alone. -/
theorem ensureFolder_folder {parts : List PathPart} (ordinary : t.Ordinary)
    (spells : p.Spells parts) (leads : Leads t.item? parts spot)
    (does : Does (ensureFolder p) t () u) : t = u := by
  rw [ensureFolder, does_tryCatch] at does
  rcases does with does | ⟨e, _, fails, does⟩
  · obtain ⟨s, resolved, vacant, -⟩ := does_createFolder.mp does
    obtain ⟨-, resolved⟩ := resolveClosed_eq_ok.mp resolved
    obtain ⟨left, way⟩ := leads
    rw [spells.closed_eq, Path.steps, spells.parts_eq, spells.closing_eq, List.append_nil]
      at resolved
    have there := ordinary.isSome_of_way item?_root way resolved
    rw [vacant] at there
    cases there
  · obtain rfl := fails_createFolder fails
    simp at does
    exact does.1

/-- If a folder that is there cannot be found, then its path is empty. -/
theorem eq_empty_of_missing {parts : List PathPart} (ordinary : t.Ordinary)
    (spells : p.Spells parts) (leads : Leads t.item? parts spot)
    (refused : Fails (createFolder p) t .notFound u) (no : t.isFolder p = false) : p = ⟨""⟩ := by
  cases checked : p.check with
  | ok _ =>
    -- The path is a way, so it leads to the folder at its end.
    obtain ⟨left, way⟩ := leads
    have resolved := resolveFrom_of_way (B := []) way (fun _ => rfl) (by simp)
    rw [List.append_nil] at resolved
    have found : t.find .content p = .ok (spot, .folder) := by
      refine find_eq_ok.mpr ⟨resolve_eq_ok.mpr ⟨checked, ?_⟩, ordinary.folder_of_way item?_root way⟩
      rw [Path.steps, spells.parts_eq, spells.closing_eq, List.append_nil, resolved]
      rfl
    rw [isFolder_iff.mpr ⟨spot, found⟩] at no
    cases no
  | error e =>
    simp [createFolder, resolveClosed, checked] at refused
    obtain ⟨rfl, rfl⟩ := refused
    unfold Path.check at checked
    split at checked
    · cases checked
    · split at checked
      · rename_i empty
        rw [String.isEmpty_iff] at empty
        exact congrArg Path.mk empty
      · split at checked <;> cases checked

/-- The folders above a folder that is there are not asked for. -/
theorem ending_createFoldersUpTo {parts : List PathPart} {above : Nat} (ordinary : t.Ordinary)
    (spells : p.Spells parts) (leads : Leads t.item? parts spot) :
    ending (createFoldersUpTo above p) t = ending (ensureFolder p) t := by
  cases above with
  | zero => rfl
  | succ above =>
    rcases done_or_failed (ensureFolder p) t with ⟨_, v, does⟩ | ⟨e, v, fails⟩
    · exact (does_tryCatch.mpr (.inl does) : Does (createFoldersUpTo _ p) ..).trans does.symm
    · obtain ⟨rfl, refused, no⟩ := fails_ensureFolder fails
      refine Eq.trans (fails_tryCatch.mpr ⟨e, t, fails, ?_⟩ : Fails (createFoldersUpTo _ p) t e t)
        fails.symm
      split
      · rename_i parent found
        have empty := eq_empty_of_missing ordinary spells leads refused no
        rw [empty] at found
        cases found
      · exact fails_throw.mpr ⟨rfl, rfl⟩

/-- Making a folder, and those above it, in a folder that is there. -/
theorem createFolders_names (names : Names t.item? p spot) (ordinary : t.Ordinary)
    (does : Does (createFolders p) t () u) :
    t.isFolder p = true ∧ t = u ∨ p.Short ∧ p.closing ≠ [.follow .here] ∧
      t.item? spot = none ∧ t.put spot .folder = u := by
  rw [createFolders] at does
  generalize p.parts.length = above at does
  cases above with
  | zero => exact ensureFolder_names names ordinary does
  | succ above =>
    rw [createFoldersUpTo, does_tryCatch] at does
    rcases does with does | ⟨e, _, fails, does⟩
    · exact ensureFolder_names names ordinary does
    · obtain ⟨rfl, -, -⟩ := fails_ensureFolder fails
      split at does
      · rename_i parent found
        obtain ⟨parts, name, folder, split, leads, rfl⟩ := names
        obtain ⟨parent', found', spells⟩ := Path.exists_parent split
        cases found.symm.trans found'
        obtain ⟨_, _, up, does⟩ := does_bind.mp does
        rw [Does, ending_createFoldersUpTo ordinary spells leads] at up
        obtain rfl := ensureFolder_folder ordinary spells leads up
        exact ensureFolder_names ⟨parts, name, folder, split, leads, rfl⟩ ordinary does
      · exact absurd does does_throw

/-- Making a folder in a folder that is there changes nothing if it fails. -/
theorem fails_createFolders {e : IoError} (names : Names t.item? p spot) (ordinary : t.Ordinary)
    (fails : Fails (createFolders p) t e u) : t = u := by
  rw [createFolders] at fails
  generalize p.parts.length = above at fails
  cases above with
  | zero => exact (fails_ensureFolder fails).1
  | succ above =>
    rw [createFoldersUpTo, fails_tryCatch] at fails
    obtain ⟨e', _, refused, fails⟩ := fails
    obtain ⟨rfl, -, -⟩ := fails_ensureFolder refused
    split at fails
    · rename_i parent found
      obtain ⟨parts, name, folder, split, leads, rfl⟩ := names
      obtain ⟨parent', found', spells⟩ := Path.exists_parent split
      cases found.symm.trans found'
      rcases fails_bind.mp fails with up | ⟨_, _, up, fails⟩
      · rw [Fails, ending_createFoldersUpTo ordinary spells leads] at up
        exact (fails_ensureFolder up).1
      · rw [Does, ending_createFoldersUpTo ordinary spells leads] at up
        obtain rfl := ensureFolder_folder ordinary spells leads up
        exact (fails_ensureFolder fails).1
    · exact (fails_throw.mp fails).2

/-- A path that leads to a folder when a separator is added leads to something without it. -/
theorem Names.found_of_isFolder_join (names : Names t.item? p spot) (ordinary : t.Ordinary)
    (there : t.isFolder (p.join "") = true) : ∃ found, t.find .entry p = .ok found := by
  obtain ⟨name, mem⟩ := names.mem_parts
  have names' := names.congr Path.parts_join_empty
  obtain ⟨s, found⟩ := isFolder_iff.mp there
  obtain ⟨resolved, folder⟩ := find_eq_ok.mp found
  have short : p.Short := by
    refine ⟨Path.check_of_join (resolve_eq_ok.mp resolved).1 ?_, ?_⟩
    · rintro rfl
      cases mem
    · have size := names'.size (resolve_eq_ok.mp resolved).2
      rwa [Path.fileName?, Path.parts_join_empty] at size
  by_cases plain : p.closing = []
  · obtain ⟨item, item_eq⟩ : ∃ item, t.item? spot = some item := by
      rcases names'.find_cases found with ⟨-, there, -⟩ | ⟨⟨target, linked⟩, -⟩
      · exact ⟨_, there⟩
      · exact ⟨_, linked⟩
    exact ⟨_, find_eq_ok.mpr ⟨names.resolve_plain plain short, item_eq⟩⟩
  · have asks : (p.join "").closing ≠ [] := by
      rw [Path.closing_join_empty mem]
      split <;> simp
    obtain ⟨before, left, stop, same, way, -⟩ := way_of_resolveFrom (fun none => absurd none asks)
      (by simp) (A := (p.join "").parts.map .follow) (resolve_eq_ok.mp resolved).2
    obtain rfl : linkLimit = before := Nat.succ.inj same
    rw [Path.parts_join_empty] at way
    have followed : t.resolveFrom .entry (linkLimit + 1) [] p.steps = .ok stop := by
      rw [Path.steps, resolveFrom_of_way way (fun none => absurd none plain) (by simp)]
      rcases p.closing_cases with none | close | here
      · exact absurd none plain
      · rw [close]
        rfl
      · rw [here]
        rfl
    have stopped := ordinary.folder_of_way item?_root way
    exact ⟨_, find_eq_ok.mpr ⟨resolve_eq_ok.mpr ⟨short.checked, followed⟩, stopped⟩⟩

end FileTree

/-! ### Links -/

/-- A copied link. -/
theorem copyLink_names (names : Names t.item? q other) (ordinary : t.Ordinary)
    (does : Does (copyLink p q) t () u) :
    q.Short ∧ q.closing = [] ∧ t.item? other = none ∧
      ∃ s target, t.find .entry p = .ok (s, .link target) ∧ t.Put other (.link target) u := by
  simp only [copyLink, does_bind, does_filing, does_readLink] at does
  obtain ⟨target, _, ⟨⟨s, found⟩, rfl⟩, does⟩ := does
  obtain ⟨s', resolved, vacant, shut, rfl⟩ := does_createLink does
  obtain rfl := names.eq_of_vacant ordinary resolved vacant
  obtain ⟨name, mem⟩ := names.mem_parts
  have plain := Path.plain_of_shut mem shut (names.end_of_vacant ordinary resolved vacant)
  exact ⟨names.short_of_closed resolved, plain, vacant, s, target, found,
    put_of_put names.ne_root⟩

end ClassNaming
