import ClassNaming.Proofs.Files.Making

/-!
# Laws of files that are found, written and moved where they lie

A file is changed in two ways: it is written at its own path, or a file beside it is moved to its
place.  A path of which the last part is a name, with nothing behind it, leads to the spot that it
names for both.

## Main Results

* `writeFile_puts`, `removeFile_drops`, `moveFile_puts` - changes at the spots that paths name
* `readFile_does`, `writeFile_does`, `removeFile_does`, `moveFile_does` - changes that can be made
-/

namespace ClassNaming.FileTree

variable {t u : FileTree} {p q root : Path} {spot other s : Spot} {item : Item}
  {content : ByteArray} {aim : Aim} {links : Nat} {steps : List PathStep}

/-! ### Changes at a spot -/

theorem put_self (there : t.item? spot = some item) : t.Put spot item t := by
  intro other
  split
  case isTrue same => rw [same, there]
  case isFalse => rfl

namespace Put

variable {v : FileTree} {item' : Item}

theorem there (put : t.Put spot item u) : u.item? spot = some item := (put spot).trans (if_pos rfl)

theorem sub (put : t.Put spot item u) (vacant : t.item? spot = none) : Sub t.item? u.item? := by
  intro other item found
  rw [put, if_neg, found]
  rintro rfl
  cases vacant.symm.trans found

/-- The item that is put last counts. -/
theorem again (put : t.Put spot item u) (put' : u.Put spot item' v) : t.Put spot item' v := by
  intro other
  rw [put']
  split
  case isTrue => rfl
  case isFalse ne => exact (put other).trans (if_neg ne)

end Put

/-- A path with nothing behind its last name leads to the spot that it names. -/
theorem Names.eq_of_entry (names : Names t.item? p spot) (plain : p.closing = [])
    (resolved : t.resolve .entry p = .ok s) : s = spot := by
  rcases names.resolve_cases (resolve_eq_ok.mp resolved).2 with ⟨same, -⟩ | ⟨-, other⟩
  · exact same
  · exact absurd rfl (other plain)

/-- Where no link lies, a file is written at the spot that the path names. -/
theorem writeFile_puts (names : Names t.item? p spot)
    (no_link : ∀ target, t.item? spot ≠ some (.link target))
    (does : Does (writeFile p content) t () u) : t.Put spot (.file content) u := by
  obtain ⟨s, resolved, -, rfl⟩ := does_writeFile.mp does
  rcases names.resolve_cases (resolve_eq_ok.mp resolved).2 with ⟨rfl, -⟩ | ⟨⟨target, linked⟩, -⟩
  · exact put_of_put names.ne_root
  · exact absurd linked (no_link target)

theorem removeFile_drops (names : Names t.item? p spot) (plain : p.closing = [])
    (does : Does (removeFile p) t () u) (other : Spot) :
    u.item? other = if other = spot then none else t.item? other := by
  obtain ⟨s, item, found, -, rfl⟩ := does_removeFile does
  obtain rfl := names.eq_of_entry plain (find_eq_ok.mp found).1
  exact item?_drop names.ne_root

/-- A file that is moved in place of another one is not where it was. -/
theorem moveFile_puts (names : Names t.item? p spot) (plain : p.closing = [])
    (names' : Names t.item? q other) (plain' : q.closing = []) (there : t.item? spot = some item)
    (does : Does (moveFile p q) t () u) (place : Spot) : u.item? place =
      if place = other then some item else if place = spot then none else t.item? place := by
  obtain ⟨s, item', goal, found, resolved, rfl⟩ := does_moveFile does
  obtain ⟨resolved', there'⟩ := find_eq_ok.mp found
  obtain rfl := names.eq_of_entry plain resolved'
  obtain rfl := names'.eq_of_entry plain' resolved
  obtain rfl := Option.some.inj (there.symm.trans there')
  rw [item?_put names'.ne_root, item?_drop names.ne_root]

/-! ### Changes that can be made -/

/-- A path that names a spot leads there for any aim, if no link lies there. -/
theorem Names.resolve_eq (names : Names t.item? p spot) (plain : p.closing = []) (short : p.Short)
    (no_link : ∀ target, t.item? spot ≠ some (.link target)) (aim : Aim) :
    t.resolve aim p = .ok spot := by
  obtain ⟨links, folder, name, rfl, ends, follows⟩ := names.resolveFrom
  refine resolve_eq_ok.mpr ⟨short.checked, ?_⟩
  rw [follows, plain, resolveFrom_name (by simp), if_neg (Nat.not_lt.mpr (short.size _ ends))]
  cases there : t.item? (folder ++ [name]) with
  | none => rfl
  | some item =>
    cases item with
    | folder => rfl
    | file content => rfl
    | link target => exact absurd there (no_link target)

/-- A path that names a file or a folder leads to it.  Only a folder can be asked for behind its
name. -/
theorem Names.find_eq (names : Names t.item? p spot) (short : p.Short)
    (there : t.item? spot = some item) (no_link : ∀ target, item ≠ .link target)
    (asks : p.closing = [] ∨ item = .folder) (reads : aim ≠ .writing) :
    t.find aim p = .ok (spot, item) := by
  obtain ⟨links, folder, name, rfl, ends, follows⟩ := names.resolveFrom
  refine find_eq_ok.mpr ⟨resolve_eq_ok.mpr ⟨short.checked, ?_⟩, there⟩
  rw [follows, resolveFrom_name (by simp [reads]), if_neg (Nat.not_lt.mpr (short.size _ ends)),
    there]
  cases item with
  | folder =>
    rcases p.closing_cases with none | close | here
    · rw [none]
      rfl
    · rw [close]
      rfl
    · rw [here]
      rfl
  | file content =>
    dsimp only
    rw [if_pos (asks.resolve_right (by simp))]
  | link target => exact absurd rfl (no_link target)

variable (names : Names t.item? p spot) (plain : p.closing = []) (short : p.Short)

include names plain short

theorem readFile_does (there : t.item? spot = some (.file content)) :
    Does (readFile p) t content t := by
  have resolved := names.resolve_eq plain short (by simp [there]) .content
  exact does_readFile.mpr ⟨⟨spot, find_eq_ok.mpr ⟨resolved, there⟩⟩, rfl⟩

theorem writeFile_does (content : ByteArray)
    (free : t.item? spot = none ∨ ∃ old, t.item? spot = some (.file old)) :
    Does (writeFile p content) t () (t.put spot (.file content)) := by
  have no_link : ∀ target, t.item? spot ≠ some (.link target) := by
    rcases free with vacant | ⟨old, there⟩
    · simp [vacant]
    · simp [there]
  refine does_writeFile.mpr ⟨spot, names.resolve_eq plain short no_link .writing, ?_, rfl⟩
  rcases free with vacant | ⟨old, there⟩
  · simp [vacant]
  · simp [there]

/-- A file or a link can be removed. -/
theorem removeFile_does (there : t.item? spot = some item) (no_folder : item ≠ .folder) :
    Does (removeFile p) t () (t.drop spot) := by
  have found : t.find .entry p = .ok (spot, item) :=
    find_eq_ok.mpr ⟨names.resolve_plain plain short, there⟩
  cases item with
  | folder => exact absurd rfl no_folder
  | file content => simp [removeFile, found]
  | link target => simp [removeFile, found]

theorem moveFile_does {old : ByteArray} (there : t.item? spot = some (.file content))
    (names' : Names t.item? q other) (plain' : q.closing = []) (short' : q.Short)
    (there' : t.item? other = some (.file old)) :
    Does (moveFile p q) t () ((t.drop spot).put other (.file content)) := by
  have resolved := names.resolve_eq plain short (by simp [there]) .entry
  have resolved' := names'.resolve_eq plain' short' (by simp [there']) .entry
  simp [moveFile, find_eq_ok.mpr ⟨resolved, there⟩, resolved', there']

end ClassNaming.FileTree
