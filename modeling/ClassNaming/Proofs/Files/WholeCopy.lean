import ClassNaming.Proofs.Files.Recovery
import ClassNaming.Proofs.Files.SystemFailure

/-!
# A copy is a whole copy or none

Whatever a path leads to can be copied to any other place: a file, a link, or a folder with all that
is in it, however deep.  Afterwards the same lies at both places, links with the same text among it,
and all else is as it was.  A copy can be made just if the paths that are followed for it can be
followed; the place may even lie within what is copied, since that is listed first.

Where anything lies already, no copy is made.  That a path leads nowhere does not mean that nothing
lies where it says: it may ask for a folder where there is none.  Then every way to begin a copy
fails, and none of them has written anything by then.

## Main Definitions

* `FileTree.Occupied` - a place where something lies

## Main Results

* `fails_copyTree_of_occupied` - no copy is made where something lies
* `copyTree_mirrors` - copies of whole trees
-/

namespace ClassNaming

open FileTree

variable {t u : FileTree} {p q : Path} {spot origin copy other : Spot} {item : Item} {e : IoError}
  {f : Failure}

/-! ### Places that are taken -/

/-- Something lies where a path says: the path leads to it, or it lies at the spot that the path
names. -/
def FileTree.Occupied (t : FileTree) (q : Path) : Prop :=
  (∃ found, t.find .entry q = .ok found) ∨ ∃ spot, Names t.item? q spot ∧ (t.item? spot).isSome

section Occupied

variable (names : Names t.item? q other) (ordinary : t.Ordinary) (there : (t.item? other).isSome)
  (missing : ∃ e, t.find .entry q = .error e)

include names ordinary there missing

theorem fails_copyFile_of_occupied (fails : Fails (copyFile p q) t e u) : t = u := by
  simp only [copyFile, fails_bind] at fails
  obtain read | ⟨_, _, read, write | ⟨_, _, write, -⟩⟩ := fails
  · exact (fails_readFile read).1
  · obtain ⟨-, rfl⟩ := does_readFile.mp read
    exact (fails_writeFile write).1
  · -- No file is written where the path says and does not lead.
    obtain ⟨-, rfl⟩ := does_readFile.mp read
    obtain ⟨-, -, vacant, -⟩ := writeFile_names names ordinary missing write
    rw [vacant] at there
    cases there

theorem fails_copyFolder_of_occupied (found : t.find .entry p = .ok (spot, .folder))
    (fails : Fails (copyItem p q .folder) t f u) : t = u := by
  rcases fails_bind.mp fails with listed | ⟨entries, _, listed, fails⟩
  · exact (fails_listNow listed).1
  simp only [listNow, does_bind, does_get, does_demand] at listed
  obtain ⟨_, _, ⟨rfl, rfl⟩, listed, rfl⟩ := listed
  obtain ⟨⟨_, no⟩, -⟩ | ⟨-, rfl⟩ := listing_cases found (by simp) listed
  · cases no
  -- The folder itself comes first, and is not made.
  have joined := names.congr Path.parts_join_empty
  rcases fails_bind.mp fails with first | ⟨_, _, first, -⟩
  · obtain ⟨e, first, -⟩ := fails_filing.mp first
    exact fails_createFolders joined ordinary first
  · rcases createFolders_names joined ordinary (does_filing.mp first) with
      ⟨found', -⟩ | ⟨-, -, vacant, -⟩
    · obtain ⟨e, missing⟩ := missing
      obtain ⟨found', there'⟩ := names.found_of_isFolder_join ordinary found'
      cases missing.symm.trans there'
    · rw [vacant] at there
      cases there

end Occupied

theorem fails_copyLink (fails : Fails (copyLink p q) t f u) : t = u := by
  rcases fails_bind.mp fails with read | ⟨target, _, read, made⟩
  · obtain ⟨e, read, -⟩ := fails_filing.mp read
    exact fails_readLink read
  · obtain ⟨-, rfl⟩ := does_readLink.mp (does_filing.mp read)
    obtain ⟨e, made, -⟩ := fails_filing.mp made
    exact fails_createLink made

/-- **No copy is made where something lies**, and nothing changes. -/
theorem fails_copyTree_of_occupied (ordinary : t.Ordinary) (occupied : Occupied t q) :
    ∃ f, Fails (copyTree p q) t f t := by
  cases taken : t.find .entry q with
  | ok found => exact ⟨_, fails_copyTree_of_found taken⟩
  | error e =>
    have missing : ∃ e, t.find .entry q = .error e := ⟨e, taken⟩
    obtain ⟨spot, names, there⟩ := occupied.resolve_left fun ⟨found, leads⟩ => by
      cases taken.symm.trans leads
    rcases done_or_failed (copyTree p q) t with ⟨_, u, does⟩ | ⟨f, u, fails⟩
    · obtain ⟨-, s, item, found, -⟩ := does_copyTree does
      obtain ⟨-, vacant, -⟩ := copyTree_copied ordinary found names does
      rw [vacant] at there
      cases there
    · have same : t = u := by
        rcases fails_copyTree_cases missing fails with ⟨-, same⟩ | ⟨s, item, found, fails⟩
        · exact same
        cases item with
        | link target => exact fails_copyLink fails
        | file content =>
          obtain ⟨e, fails, -⟩ := fails_filing.mp fails
          exact fails_copyFile_of_occupied names ordinary there missing fails
        | folder => exact fails_copyFolder_of_occupied names ordinary there missing found fails
      exact ⟨f, same ▸ fails⟩

/-! ### Whole trees -/

/-- What does not lie around its copy is still there when it was copied. -/
theorem FileTree.Copied.same (copied : t.Copied origin copy u) (ordinary : t.Ordinary)
    (there : (t.item? origin).isSome) (vacant : t.item? copy = none) (apart : ¬ origin <+: copy)
    (names : List String) : u.item? (copy ++ names) = u.item? (origin ++ names) := by
  rw [copied.at_copy, copied.elsewhere]
  intro below
  rcases List.prefix_or_prefix_of_prefix below (List.prefix_append origin names) with above | inside
  · -- Nothing lies below the place of the copy, where nothing is.
    by_cases same : origin = copy
    · exact apart (same ▸ List.prefix_refl _)
    · rw [ordinary.vacant_below (by rw [vacant]; simp) above same] at there
      cases there
  · exact apart inside

/-- **A copy is a whole copy or none.**  Where nothing lies, in a folder that is there, a copy can
be made just if the paths can be followed, and fails for reasons of reading and writing only.  Once
it is made, all that the other path leads to is there as it was, links among it, and nothing else
has changed.  Where anything lies, the copy fails and nothing changes. -/
theorem copyTree_mirrors (ordinary : t.Ordinary) (p q : Path) :
    (∀ origin item copy, t.find .entry p = .ok (origin, item) → Names t.item? q copy →
      t.item? copy = none →
      ((∃ u, Does (copyTree p q) t () u) ↔ Followable t origin item p q) ∧
      (∀ f u, Fails (copyTree p q) t f u → f.IsIo) ∧
      ∀ u, Does (copyTree p q) t () u → t.Copied origin copy u ∧
        (¬ origin <+: copy → ∀ names, u.item? (copy ++ names) = u.item? (origin ++ names))) ∧
    (Occupied t q → ∃ f, Fails (copyTree p q) t f t) := by
  refine ⟨fun origin item copy found names vacant => ⟨?_, ?_, fun u does => ?_⟩,
    fails_copyTree_of_occupied ordinary⟩
  · exact ⟨fun ⟨u, does⟩ => followable_of_copyTree ordinary found names does,
      exists_copyTree ordinary found names vacant⟩
  · exact fun f u => isIo_of_copyTree (names.missing vacant)
  · obtain ⟨-, -, -, copied⟩ := copyTree_copied ordinary found names does
    have there : (t.item? origin).isSome := by rw [(find_eq_ok.mp found).2]; rfl
    exact ⟨copied, copied.same ordinary there vacant⟩

namespace FolderWithLink

/-- A folder with a file, an empty folder and a link that leads nowhere, and another such link
beside it. -/
def tree : FileTree :=
  ((((FileTree.empty.put ["w"] .folder).put ["w", "a"] (.file ⟨#[120]⟩)).put ["w", "d"]
    .folder).put ["w", "l"] (.link ⟨"gone"⟩)).put ["k"] (.link ⟨"gone"⟩)

theorem isName_sample {name : String} (mem : name ∈ ["w", "a", "d", "l", "k"]) : IsName name := by
  simp only [List.mem_cons, List.not_mem_nil, or_false] at mem
  rcases mem with rfl | rfl | rfl | rfl | rfl <;> constructor <;> decide

theorem ordinary_tree : tree.Ordinary := by
  have folder := @Ordinary.put _ [] .folder "w" ordinary_empty item?_root
    (isName_sample (by decide)) (by decide) (by decide)
  have file := @Ordinary.put _ ["w"] (.file ⟨#[120]⟩) "a" folder (by decide)
    (isName_sample (by decide)) (by decide) (by decide)
  have inner := @Ordinary.put _ ["w"] .folder "d" file (by decide)
    (isName_sample (by decide)) (by decide) (by decide)
  have link := @Ordinary.put _ ["w"] (.link ⟨"gone"⟩) "l" inner (by decide)
    (isName_sample (by decide)) (by decide) (by decide)
  exact @Ordinary.put _ [] (.link ⟨"gone"⟩) "k" link item?_root
    (isName_sample (by decide)) (by decide) (by decide)

/-- The folder is copied with its link, but not to where the other link is. -/
theorem mirrors_tree :
    (∃ u, Does (copyTree ⟨"w"⟩ ⟨"v"⟩) tree () u ∧ tree.Copied ["w"] ["v"] u ∧
      u.item? ["v", "l"] = some (.link ⟨"gone"⟩)) ∧
    ∃ f, Fails (copyTree ⟨"w"⟩ ⟨"k"⟩) tree f tree := by
  have found : tree.find .entry ⟨"w"⟩ = .ok (["w"], .folder) := by decide +kernel
  have names : Names tree.item? ⟨"v"⟩ ["v"] :=
    ⟨[], "v", [], by decide +kernel, ⟨linkLimit, .done⟩, rfl⟩
  have taken : tree.find .entry ⟨"k"⟩ = .ok (["k"], .link ⟨"gone"⟩) := by decide +kernel
  obtain ⟨made, -, whole⟩ := (copyTree_mirrors ordinary_tree ⟨"w"⟩ ⟨"v"⟩).1 ["w"] .folder ["v"]
    found names (by decide)
  obtain ⟨u, does⟩ := made.mpr (by decide +kernel)
  obtain ⟨copied, -⟩ := whole u does
  refine ⟨⟨u, does, copied, ?_⟩,
    (copyTree_mirrors ordinary_tree ⟨"w"⟩ ⟨"k"⟩).2 (.inl ⟨_, taken⟩)⟩
  exact (copied.at_copy ["l"]).trans (by decide)

end FolderWithLink

end ClassNaming
