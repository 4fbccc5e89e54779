import ClassNaming.Files.Listing
import ClassNaming.Proofs.Files.Way

/-!
# Laws of what a path leads to

What a path leads to does not depend on its aim, unless there is a link at its end.  What is no
folder cannot be asked for by anything but its name, so the path ends with that name; a folder may
be reached otherwise, by two dots or through the separator behind a link.

A listing begins with what its root leads to, so it is told by the same laws.

## Main Results

* `find_content_of_entry` - what is no link is found by any aim
* `exists_names_of_find` - a path to what is no folder ends with its name
* `listing_cases` - what is listed below a root that is no link
-/

namespace ClassNaming.FileTree

variable {t : FileTree} {p root : Path} {spot s : Spot} {item : Item} {aim : Aim} {links : Nat}
  {steps : List PathStep}

private theorem resolveFrom_content (found : t.resolveFrom .entry links spot steps = .ok s)
    (no_link : ∀ target, t.item? s ≠ some (.link target)) :
    t.resolveFrom .content links spot steps = .ok s := by
  -- By induction on the links that may be followed, and along the steps between two of them.
  induction links generalizing spot steps with
  | zero => cases found
  | succ links next =>
    induction steps generalizing spot with
    | nil => exact found
    | cons step steps ih =>
      rcases step with (_ | _ | _ | name) | _
      · exact resolveFrom_root.trans (ih (resolveFrom_root ▸ found))
      · exact resolveFrom_here.trans (ih (resolveFrom_here ▸ found))
      · exact resolveFrom_up.trans (ih (resolveFrom_up ▸ found))
      · rw [resolveFrom_name (by simp)] at found ⊢
        split at found
        case isTrue => cases found
        case isFalse size =>
          rw [if_neg size]
          split at found
          case h_1 => exact ih found
          case h_2 target linked =>
            rw [if_neg (by simp)]
            split at found
            case isTrue => exact absurd (Except.ok.inj found ▸ linked) (no_link target)
            case isFalse => exact next found
          case h_3 => exact found
          case h_4 => exact found
      · exact resolveFrom_close.trans (ih (resolveFrom_close ▸ found))

/-- What is no link is found if links are followed at the end, too. -/
theorem find_content_of_entry (found : t.find .entry p = .ok (s, item))
    (no_link : ∀ target, item ≠ .link target) : t.find .content p = .ok (s, item) := by
  obtain ⟨resolved, there⟩ := find_eq_ok.mp found
  obtain ⟨checked, followed⟩ := resolve_eq_ok.mp resolved
  refine find_eq_ok.mpr ⟨resolve_eq_ok.mpr ⟨checked, resolveFrom_content followed ?_⟩, there⟩
  rw [there]
  exact fun target linked => no_link target (Option.some.inj linked)

/-- A path that leads to what is no folder ends with a name, and nothing is asked for behind it. -/
theorem exists_parts_of_find (ordinary : t.Ordinary) (reads : aim ≠ .writing)
    (found : t.find aim p = .ok (s, item)) (other : item ≠ .folder) : ∃ parts folder name,
      p.parts = parts ++ [.name name] ∧ Leads t.item? parts folder ∧ p.closing = [] := by
  obtain ⟨resolved, there⟩ := find_eq_ok.mp found
  obtain ⟨-, followed⟩ := resolve_eq_ok.mp resolved
  have no_folder : t.item? s ≠ some .folder := by
    rw [there]
    exact fun same => other (Option.some.inj same)
  -- A way ends at a folder, so the item is behind one.
  have behind : ∀ A B, p.steps = A ++ B → B ≠ [] → ∃ left stop,
      t.item? stop = some .folder ∧ t.resolveFrom aim (left + 1) stop B = .ok s := by
    intro A B split ne
    rw [split] at followed
    obtain ⟨before, left, stop, -, way, reached⟩ :=
      way_of_resolveFrom (fun none => absurd none ne) (fun writing => absurd writing reads) followed
    exact ⟨left, stop, ordinary.folder_of_way item?_root way, reached⟩
  have plain : p.closing = [] := by
    by_contra asks
    obtain ⟨left, stop, folder, reached⟩ := behind _ _ rfl asks
    rcases p.closing_cases with none | close | here
    · exact asks none
    · rw [close] at reached
      exact no_folder (Except.ok.inj reached ▸ folder)
    · rw [here] at reached
      exact no_folder (Except.ok.inj reached ▸ folder)
  rcases List.eq_nil_or_concat p.parts with none | ⟨parts, last, split⟩
  · rw [Path.steps, none, plain] at followed
    exact absurd item?_root (Except.ok.inj followed ▸ no_folder)
  · rw [List.concat_eq_append] at split
    have steps : p.steps = parts.map .follow ++ [.follow last] := by
      rw [Path.steps, split, plain, List.map_append, List.append_nil]
      rfl
    obtain ⟨left, stop, folder, reached⟩ := behind _ _ steps (by simp)
    cases last with
    | root => exact absurd item?_root (Except.ok.inj reached ▸ no_folder)
    | here => exact absurd folder (Except.ok.inj reached ▸ no_folder)
    | up => exact absurd (ordinary.folder_dropLast folder) (Except.ok.inj reached ▸ no_folder)
    | name name =>
      obtain ⟨folder, leads, -⟩ := names_of_resolveFrom split followed
      exact ⟨parts, folder, name, split, leads, plain⟩

/-- A path to what is no folder ends with its name. -/
theorem exists_names_of_find (ordinary : t.Ordinary) (found : t.find .entry p = .ok (s, item))
    (other : item ≠ .folder) : ∃ parts folder name,
      p.parts = parts ++ [.name name] ∧ Leads t.item? parts folder ∧ s = folder ++ [name] ∧
        p.closing = [] := by
  obtain ⟨parts, folder, name, split, leads, plain⟩ :=
    exists_parts_of_find ordinary (by simp) found other
  have names : Names t.item? p (folder ++ [name]) := ⟨parts, name, folder, split, leads, rfl⟩
  rcases names.find_cases found with ⟨same, -, -⟩ | ⟨-, no⟩
  · exact ⟨parts, folder, name, split, leads, same, plain⟩
  · exact absurd rfl (no plain)

/-- A file is all that is listed at its own path, and a folder is listed with everything below
it. -/
theorem listing_cases {entries : List ListedItem} (found : t.find .entry root = .ok (s, item))
    (no_link : ∀ target, item ≠ .link target) (listed : t.listing root = .ok entries) :
    (∃ content, item = .file content) ∧ entries = [⟨[], .file⟩] ∨
      item = .folder ∧ entries = ⟨[], .folder⟩ :: t.entriesBelow s := by
  have found_content := find_content_of_entry found no_link
  unfold listing isFile at listed
  rw [found_content, found] at listed
  cases item with
  | file content => exact .inl ⟨⟨_, rfl⟩, (Except.ok.inj listed).symm⟩
  | link target => exact absurd rfl (no_link target)
  | folder =>
    dsimp only at listed
    rw [if_neg (by simp)] at listed
    split at listed
    case h_1 => cases listed
    case h_2 => exact .inr ⟨rfl, (Except.ok.inj listed).symm⟩

end ClassNaming.FileTree
