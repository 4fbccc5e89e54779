import ClassNaming.Files.Change
import ClassNaming.Proofs.Files.Way
import ClassNaming.Proofs.Job

/-!
# Laws of reading and changing a tree

What an operation on a tree has found and done if it succeeds, and what a failed one has left.

## Main Results

* `does_readFile`, `does_readText`, `does_readLink` - what is read
* `does_writeFile`, `does_copyFile`, `does_createFolder`, `does_createLink` - what is made
* `does_removeFile`, `does_removeFolder`, `does_removeAll` - what is removed
* `does_moveFile` - what is moved
-/

namespace ClassNaming.FileTree

variable {t u : FileTree} {p : Path} {item : Item} {content : ByteArray} {spot : Spot}

/-! ### What operations do -/

/-- What is inspected is the item that the path names, a link included. -/
theorem does_inspect :
    Does (inspect p) t item u ↔ (∃ s, t.find .entry p = .ok (s, item)) ∧ t = u := by
  simp [inspect, and_assoc]

/-- An inspection changes nothing, even if it fails. -/
theorem fails_inspect {e : IoError} (fails : Fails (inspect p) t e u) : t = u := by
  simp [inspect] at fails
  exact fails.1

/-- The content that is read is that of the file to which the path leads. -/
theorem does_readFile :
    Does (readFile p) t content u ↔ (∃ s, t.find .content p = .ok (s, .file content)) ∧ t = u := by
  simp only [readFile, does_bind, does_get, does_lift]
  constructor
  · rintro ⟨_, _, ⟨rfl, rfl⟩, ⟨s, item⟩, _, ⟨found, rfl⟩, does⟩
    cases item with
    | file other =>
      obtain ⟨rfl, rfl⟩ := does_pure.mp does
      exact ⟨⟨s, found⟩, rfl⟩
    | folder => exact absurd does does_throw
    | link _ => exact absurd does does_throw
  · rintro ⟨⟨s, found⟩, rfl⟩
    exact ⟨t, t, ⟨rfl, rfl⟩, (s, .file content), t, ⟨found, rfl⟩, does_pure.mpr ⟨rfl, rfl⟩⟩

/-- A text is read if the content is in UTF-8. -/
theorem does_readText {text : String} : Does (readText p) t text u ↔
    ∃ content, Does (readFile p) t content u ∧ String.fromUTF8? content = some text := by
  simp only [readText, does_bind]
  constructor
  · rintro ⟨content, v, read, does⟩
    split at does
    case h_1 same =>
      obtain ⟨rfl, rfl⟩ := does_pure.mp does
      exact ⟨content, read, same⟩
    case h_2 => exact absurd does does_throw
  · rintro ⟨content, read, same⟩
    exact ⟨content, u, read, by rw [same]; exact does_pure.mpr ⟨rfl, rfl⟩⟩

/-- A text is read back from its bytes. -/
theorem fromUTF8?_toUTF8 (text : String) : String.fromUTF8? text.toUTF8 = some text := by
  have valid : text.toUTF8.IsValidUTF8 := text.isValidUTF8
  rw [String.fromUTF8?, dif_pos valid]
  rfl

/-- A file is written where the path leads, but not in place of a folder. -/
theorem does_writeFile : Does (writeFile p content) t () u ↔
    ∃ s, t.resolve .writing p = .ok s ∧ t.item? s ≠ some .folder ∧ t.put s (.file content) = u := by
  simp [writeFile]

/-- A file is read, the copy is made empty, and then the file is read once more, since the copy may
be the file itself. -/
theorem does_copyFile {q : Path} (does : Does (copyFile p q) t () u) :
    ∃ emptied content content', Does (readFile p) t content t ∧
      Does (writeFile q .empty) t () emptied ∧ Does (readFile p) emptied content' emptied ∧
      Does (writeFile q content') emptied () u := by
  simp only [copyFile, does_bind] at does
  obtain ⟨content, t', read, _, emptied, write, content', _, read', write'⟩ := does
  obtain ⟨-, rfl⟩ := does_readFile.mp read
  obtain ⟨-, rfl⟩ := does_readFile.mp read'
  exact ⟨emptied, content, content', read, write, read', write'⟩

/-- A folder is created where there was nothing. -/
theorem does_createFolder : Does (createFolder p) t () u ↔
    ∃ s, t.resolveClosed p = .ok s ∧ t.item? s = none ∧ t.put s .folder = u := by
  simp [createFolder]

theorem fails_createFolder {e : IoError} (fails : Fails (createFolder p) t e u) : t = u := by
  simp [createFolder] at fails
  grind

/-- The target that is read is that of the link itself. -/
theorem does_readLink {target : Path} : Does (readLink p) t target u ↔
    (∃ s, t.find .entry p = .ok (s, .link target)) ∧ t = u := by
  simp only [readLink, does_bind, does_inspect]
  constructor
  · rintro ⟨item, _, ⟨⟨s, found⟩, rfl⟩, does⟩
    cases item with
    | link other =>
      obtain ⟨rfl, rfl⟩ := does_pure.mp does
      exact ⟨⟨s, found⟩, rfl⟩
    | folder => exact absurd does does_throw
    | file _ => exact absurd does does_throw
  · rintro ⟨⟨s, found⟩, rfl⟩
    exact ⟨.link target, t, ⟨⟨s, found⟩, rfl⟩, does_pure.mpr ⟨rfl, rfl⟩⟩

theorem fails_readLink {e : IoError} (fails : Fails (readLink p) t e u) : t = u := by
  rcases fails_bind.mp fails with stuck | ⟨item, _, looked, fails⟩
  · exact fails_inspect stuck
  · obtain ⟨-, rfl⟩ := does_inspect.mp looked
    split at fails
    · exact absurd fails fails_pure
    · exact (fails_throw.mp fails).2

/-- A link is created where there was nothing, and its path may not ask for a folder. -/
theorem does_createLink {target : Path} (does : Does (createLink target p) t () u) :
    ∃ s, t.resolveClosed p = .ok s ∧ t.item? s = none ∧ p.endsOpen = false ∧
      t.put s (.link target) = u := by
  simp [createLink] at does
  grind

theorem fails_createLink {target : Path} {e : IoError} (fails : Fails (createLink target p) t e u) :
    t = u := by
  simp [createLink] at fails
  grind

/-- What is removed as a file is a file or a link. -/
theorem does_removeFile (does : Does (removeFile p) t () u) :
    ∃ s item, t.find .entry p = .ok (s, item) ∧ item ≠ .folder ∧ t.drop s = u := by
  simp only [removeFile, does_bind, does_get, does_lift] at does
  obtain ⟨_, _, ⟨rfl, rfl⟩, ⟨s, item⟩, _, ⟨found, rfl⟩, does⟩ := does
  cases item with
  | folder => exact absurd does does_throw
  | file _ => exact ⟨s, _, found, by simp, does_set.mp does⟩
  | link _ => exact ⟨s, _, found, by simp, does_set.mp does⟩

/-- What is removed as a folder is one, and its path ends in its name. -/
theorem does_removeFolder (does : Does (removeFolder p) t () u) :
    ∃ s, t.itemAt (t.resolveClosed p) = .ok (s, .folder) ∧ p.closed.closing = [] ∧
      t.drop s = u := by
  simp [removeFolder] at does
  obtain ⟨s, found, -, plain, -, rfl⟩ := does
  exact ⟨s, found, by simp [Path.closing, plain], rfl⟩

/-- Only what is not there is not found. -/
theorem fails_removeFolder {e : IoError} (fails : Fails (removeFolder p) t e u) :
    t = u ∧ (e = .notFound → t.itemAt (t.resolveClosed p) = .error .notFound) := by
  simp [removeFolder] at fails
  grind

/-- Removing a folder is emptying it and removing it; if the path does not lead to it any more when
it is empty, then it stays. -/
theorem does_removeAll (does : Does (removeAll p) t () u) :
    ∃ s item, t.find .entry p = .ok (s, item) ∧
      (item ≠ .folder ∧ t.drop s = u ∨
        item = .folder ∧ (Does (removeFolder p) (t.dropBelow s) () u ∨
          Fails (removeFolder p) (t.dropBelow s) .notFound u)) := by
  simp only [removeAll, does_bind, does_get, does_lift] at does
  obtain ⟨_, _, ⟨rfl, rfl⟩, ⟨s, item⟩, _, ⟨found, rfl⟩, does⟩ := does
  refine ⟨s, item, found, ?_⟩
  cases item with
  | file _ => exact absurd does does_throw
  | link _ => exact .inl ⟨by simp, does_set.mp does⟩
  | folder =>
    simp only [does_bind, does_set, does_tryCatch] at does
    obtain ⟨_, _, rfl, does | ⟨e, _, fails, does⟩⟩ := does
    · exact .inr ⟨rfl, .inl does⟩
    · split at does
      · obtain ⟨-, rfl⟩ := does_pure.mp does
        exact .inr ⟨rfl, .inr fails⟩
      · exact absurd does does_throw

/-- A folder that cannot be removed may have been emptied. -/
theorem fails_removeAll {e : IoError} (fails : Fails (removeAll p) t e u) :
    t = u ∨ ∃ s, t.find .entry p = .ok (s, .folder) ∧ t.dropBelow s = u := by
  simp only [removeAll, fails_bind, fails_get, does_get, does_lift, false_or] at fails
  obtain ⟨_, _, ⟨rfl, rfl⟩, stuck | ⟨⟨s, item⟩, _, ⟨found, rfl⟩, fails⟩⟩ := fails
  · exact .inl (fails_lift.mp stuck).2
  · cases item with
    | file _ => exact .inl (fails_throw.mp fails).2
    | link _ => exact absurd fails fails_set
    | folder =>
      refine .inr ⟨s, found, ?_⟩
      simp only [fails_bind, does_set, fails_set, false_or, fails_tryCatch] at fails
      obtain ⟨_, _, rfl, e, _, stuck, fails⟩ := fails
      obtain rfl := (fails_removeFolder stuck).1
      split at fails
      · exact absurd fails fails_pure
      · exact (fails_throw.mp fails).2

/-- What is moved replaces what was in its place. -/
theorem does_moveFile {q : Path} (does : Does (moveFile p q) t () u) :
    ∃ s item goal, t.find .entry p = .ok (s, item) ∧ t.resolve .entry q = .ok goal ∧
      (t.drop s).put goal item = u := by
  simp [moveFile] at does
  obtain ⟨s, item, found, -, goal, resolved, -, rfl⟩ := does
  exact ⟨s, item, goal, found, resolved, rfl⟩

end ClassNaming.FileTree
