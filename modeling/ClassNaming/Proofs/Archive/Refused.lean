import ClassNaming.Proofs.Archive.Renaming

/-!
# Archives that cannot be rebuilt

An archive is rebuilt up to the first entry that cannot be.  Which entry that is depends on the
archive alone, and so does the failure, but for the label of the archive in the places that it
names.  What was done for the entries before it does not matter.

So every archive is either rebuilt or refused, each in one way.

## Main Definitions

* `ContentError.failure` - how it is told that a content cannot be read
* `RefusesEntry` - why an entry cannot be rebuilt
* `RefusesArchive` - why an archive cannot be, by the levels of archives within archives
* `Stops` - the failures that a job comes to

## Main Results

* `stops_renameEntry`, `stops_renameNested` - what stops an entry, and an archive
* `RefusesArchive.unique` - an archive is refused for one reason only
* `RefusesArchive.not_rebuildsTo` - an archive that is refused is not rebuilt
-/

namespace ClassNaming.Archive

variable {α β : Type} {job : Job Option Progress α} {renamer : Renamer} {archive : Archive}
  {h : Header} {r : Rebuilt} {label location : String} {depth : Nat} {f : Failure}
  {rebuild : String → Archive → Job Option Progress Rebuilt} {inner : Archive → Rebuilt → Prop}
  {refuses : String → Archive → Failure → Prop}

/-! ### Why an entry is refused -/

/-- How it is told that the content at a location cannot be read. -/
def ContentError.failure (location : String) : ContentError → Failure
  | .opening e => ⟨[.openEntry location], .archive e⟩
  | .reading e => ⟨[.readEntry location], .io e⟩

/-- Why a class cannot be renamed: it cannot be read, or is malformed or too large. -/
inductive RefusesClass (renamer : Renamer) (archive : Archive) (h : Header) (location : String) :
    Failure → Prop
  | content {e : ContentError} (unread : archive.content h = .error e) :
      RefusesClass renamer archive h location (e.failure location)
  | verdict {content : ByteArray} {e : ClassFileError} (read : archive.content h = .ok content)
      (refused : renameClass renamer content.data.toList = some (.error e)) :
      RefusesClass renamer archive h location ⟨[.renameClass location], .classFile e⟩

/-- Why an archive in an archive cannot be rebuilt; `refuses` tells why, once it was opened. -/
inductive RefusesInner (refuses : String → Archive → Failure → Prop) (archive : Archive)
    (h : Header) (location : String) : Failure → Prop
  | content {e : ContentError} (unread : archive.content h = .error e) :
      RefusesInner refuses archive h location (e.failure location)
  | unopened {content : ByteArray} {e : ArchiveError} (read : archive.content h = .ok content)
      (refused : Archive.ofBytes content = .error e) :
      RefusesInner refuses archive h location ⟨[.readStructure location], .archive e⟩
  | entry {content : ByteArray} {a : Archive} {f : Failure} (read : archive.content h = .ok content)
      (opened : Archive.ofBytes content = .ok a) (refused : refuses location a f) :
      RefusesInner refuses archive h location f

/-- Why an entry cannot be rebuilt. -/
inductive RefusesEntry (renamer : Renamer) (refuses : String → Archive → Failure → Prop)
    (label : String) (archive : Archive) (h : Header) : Failure → Prop
  | raw {e : ArchiveError} (unread : archive.rawContent h = .error e) :
      RefusesEntry renamer refuses label archive h (.ofCause (.archive e))
  | classFile {raw : ByteArray} {f : Failure} (found : archive.rawContent h = .ok raw)
      (kind : h.kind = .classFile) (refused : RefusesClass renamer archive h (h.location label) f) :
      RefusesEntry renamer refuses label archive h f
  | archive {raw : ByteArray} {f : Failure} (found : archive.rawContent h = .ok raw)
      (kind : h.kind = .archive) (refused : RefusesInner refuses archive h (h.location label) f) :
      RefusesEntry renamer refuses label archive h f

/-- Why an archive cannot be rebuilt that may hold archives so many levels deep: an entry cannot be,
and all entries before it can. -/
def RefusesArchive (renamer : Renamer) : Nat → String → Archive → Failure → Prop
  | 0, _, _, f => f = .ofCause .nestedTooDeep
  | depth + 1, label, archive, f => ∃ before h after written,
      archive.headers = before ++ h :: after ∧
      List.Forall₂ (Writes renamer (Rebuilds renamer depth) archive) before written ∧
      RefusesEntry renamer (RefusesArchive renamer depth) label archive h f

/-! ### What the jobs come to -/

/-- A job fails in certain ways, whatever progress there was. -/
def Stops (job : Job Option Progress α) (failures : Failure → Prop) : Prop :=
  ∀ f p, (∃ p', Fails job p f p') ↔ failures f

/-- The failures may be described in another way. -/
theorem Stops.congr {failures failures' : Failure → Prop} (stops : Stops job failures)
    (same : ∀ f, failures f ↔ failures' f) : Stops job failures' :=
  fun f p => (stops f p).trans (same f)

theorem stops_pure {a : α} : Stops (pure a) fun _ => False := fun _ _ => by simp

/-- A job that only fails does so with its failure. -/
theorem stops_throw {failure : Failure} :
    Stops (throw failure : Job Option Progress α) (failure = ·) :=
  fun _ _ => by simp

theorem stops_count {step : Tally → Tally} : Stops (count step) fun _ => False :=
  fun _ _ => by simp [count]

theorem stops_tell {e : Event} : Stops (tell e) fun _ => False := fun _ _ => by simp [tell]

/-- What is not there is demanded in vain. -/
theorem stops_demand {ε : Type} {cause : ε → Cause} {x : Except ε α} :
    Stops (demand cause x) fun f => ∃ e, x = .error e ∧ Failure.ofCause (cause e) = f :=
  fun _ _ => by simp

/-- What comes to an error is awaited in vain. -/
theorem stops_await {ε : Type} {cause : ε → Cause} {x : Option (Except ε α)} :
    Stops (await cause x) fun f => ∃ e, x = some (.error e) ∧ Failure.ofCause (cause e) = f :=
  fun _ _ => by simp

/-- A job that fails in the course of an action names that, too. -/
theorem Stops.during {failures : Failure → Prop} {action : Action} (stops : Stops job failures) :
    Stops (job.during action) fun f => ∃ f', failures f' ∧ f'.during action = f := by
  intro f p
  simp only [fails_during, ← stops _ p]
  grind

/-- Of two jobs, the first one fails, or it does its work and the second one fails. -/
theorem Stops.bind {next : α → Job Option Progress β} {failures : Failure → Prop}
    {results : α → Prop} {later : α → Failure → Prop} (stops : Stops job failures)
    (yields : Yields job results)
    (rest : ∀ a, Stops (next a) (later a)) :
    Stops (job >>= next) fun f => failures f ∨ ∃ a, results a ∧ later a f := by
  intro f p
  simp only [fails_bind]
  constructor
  · rintro ⟨p', first | ⟨a, t, first, second⟩⟩
    · exact .inl ((stops f p).mp ⟨p', first⟩)
    · exact .inr ⟨a, (yields a p).mp ⟨t, first⟩, (rest a f t).mp ⟨p', second⟩⟩
  · rintro (first | ⟨a, first, second⟩)
    · obtain ⟨p', first⟩ := (stops f p).mpr first
      exact ⟨p', .inl first⟩
    · obtain ⟨t, first⟩ := (yields a p).mpr first
      obtain ⟨p', second⟩ := (rest a f t).mpr second
      exact ⟨p', .inr ⟨a, t, first, second⟩⟩

/-- A job whose second part does not fail. -/
theorem Stops.bind_done {next : α → Job Option Progress β} {failures : Failure → Prop}
    {results : α → Prop} (stops : Stops job failures) (yields : Yields job results)
    (rest : ∀ a, Stops (next a) fun _ => False) : Stops (job >>= next) failures :=
  (stops.bind yields rest).congr fun f => by simp

/-- An entry cannot be read if it has no content, and its location is named. -/
theorem fails_readContent {p p' : Progress} : Fails (archive.readContent h location) p f p' ↔
    ∃ e, archive.content h = .error e ∧ e.failure location = f ∧ p = p' := by
  unfold readContent
  split
  case h_1 found => simp [found]
  case h_2 e found =>
    simp [found, ContentError.failure, Failure.ofCause, Failure.during, and_comm]
  case h_3 e found =>
    simp [found, ContentError.failure, Failure.ofCause, Failure.during, and_comm]

/-- So the failures to read it are those. -/
theorem stops_readContent : Stops (archive.readContent h location) fun f =>
    ∃ e, archive.content h = .error e ∧ e.failure location = f :=
  fun f p => by simp [fails_readContent]

/-- A class entry fails if its content cannot be read or its class is refused. -/
theorem stops_renameClassEntry : Stops (renameClassEntry renamer archive h location)
    (RefusesClass renamer archive h location) := by
  unfold renameClassEntry
  refine (stops_count.bind yields_count fun _ => stops_readContent.bind yields_readContent
    fun content => stops_await.during.bind_done yields_await.during fun verdict => ?_).congr
      fun f => ?_
  · cases verdict with
    | renamed bytes =>
      exact stops_count.bind_done yields_count fun _ => stops_tell.bind_done yields_tell fun _ =>
        stops_pure
    | kept why =>
      dsimp only
      split
      · exact stops_tell.bind_done yields_tell fun _ => stops_pure
      · exact stops_pure
  · constructor
    · rintro (⟨⟨⟩⟩ | ⟨_, -, ⟨e, unread, rfl⟩ | ⟨content, read, _, ⟨e, refused, rfl⟩, rfl⟩⟩)
      · exact .content unread
      · exact .verdict read refused
    · rintro (⟨unread⟩ | ⟨read, refused⟩)
      · exact .inr ⟨(), trivial, .inl ⟨_, unread, rfl⟩⟩
      · exact .inr ⟨(), trivial, .inr ⟨_, read, _, ⟨_, refused, rfl⟩, rfl⟩⟩

/-- An archive in an archive fails if it cannot be read or opened, or something in it fails. -/
theorem stops_renameArchiveEntry (yields : ∀ label a, Yields (rebuild label a) (inner a))
    (stops : ∀ label a, Stops (rebuild label a) (refuses label a)) :
    Stops (renameArchiveEntry rebuild archive h location)
      (RefusesInner refuses archive h location) := by
  unfold renameArchiveEntry
  refine (stops_count.bind yields_count fun _ => stops_readContent.bind yields_readContent
    fun content => stops_demand.during.bind yields_demand.during fun a =>
      (stops location a).bind_done (yields location a) fun r => ?_).congr fun f => ?_
  · split
    · exact stops_count.bind_done yields_count fun _ => stops_tell.bind_done yields_tell fun _ =>
        stops_pure
    · exact stops_pure
  · constructor
    · rintro (⟨⟨⟩⟩ | ⟨_, -, ⟨e, unread, rfl⟩ | ⟨content, read, ⟨_, ⟨e, refused, rfl⟩, rfl⟩ |
        ⟨a, opened, refused⟩⟩⟩)
      · exact .content unread
      · exact .unopened read refused
      · exact .entry read opened refused
    · rintro (⟨unread⟩ | ⟨read, refused⟩ | ⟨read, opened, refused⟩)
      · exact .inr ⟨(), trivial, .inl ⟨_, unread, rfl⟩⟩
      · exact .inr ⟨(), trivial, .inr ⟨_, read, .inl ⟨_, ⟨_, refused, rfl⟩, rfl⟩⟩⟩
      · exact .inr ⟨(), trivial, .inr ⟨_, read, .inr ⟨_, opened, refused⟩⟩⟩

/-- **What stops an entry.** -/
theorem stops_renameEntry (yields : ∀ label a, Yields (rebuild label a) (inner a))
    (stops : ∀ label a, Stops (rebuild label a) (refuses label a)) :
    Stops (renameEntry renamer rebuild label archive h)
      (RefusesEntry renamer refuses label archive h) := by
  unfold renameEntry
  cases kind : h.kind
  case' classFile =>
    have replaced : Yields (renameClassEntry renamer archive h (h.location label))
        (Replaces renamer inner archive h) := yields_renameClassEntry kind
    refine Stops.congr (stops_demand.bind yields_demand fun raw =>
      stops_renameClassEntry.bind_done replaced fun replacement => ?_) fun f => ?_
    swap
    · constructor
      · rintro (⟨e, unread, rfl⟩ | ⟨raw, found, refused⟩)
        · exact .raw unread
        · exact .classFile found kind refused
      · rintro (⟨unread⟩ | ⟨found, _, refused⟩ | ⟨_, other⟩)
        · exact .inl ⟨_, unread, rfl⟩
        · exact .inr ⟨_, found, refused⟩
        · cases kind.symm.trans other
  case' archive =>
    have replaced : Yields (renameArchiveEntry rebuild archive h (h.location label))
        (Replaces renamer inner archive h) := yields_renameArchiveEntry kind yields
    refine Stops.congr (stops_demand.bind yields_demand fun raw =>
      (stops_renameArchiveEntry yields stops).bind_done replaced fun replacement => ?_) fun f => ?_
    swap
    · constructor
      · rintro (⟨e, unread, rfl⟩ | ⟨raw, found, refused⟩)
        · exact .raw unread
        · exact .archive found kind refused
      · rintro (⟨unread⟩ | ⟨_, other⟩ | ⟨found, _, refused⟩)
        · exact .inl ⟨_, unread, rfl⟩
        · cases kind.symm.trans other
        · exact .inr ⟨_, found, refused⟩
  case' other =>
    refine Stops.congr (stops_demand.bind_done yields_demand fun raw =>
      stops_pure.bind_done yields_pure fun replacement => ?_) fun f => ?_
    swap
    · constructor
      · rintro ⟨e, unread, rfl⟩
        exact .raw unread
      · rintro (⟨unread⟩ | ⟨_, other⟩ | ⟨_, other⟩)
        · exact ⟨_, unread, rfl⟩
        · cases kind.symm.trans other
        · cases kind.symm.trans other
  -- Once its content is settled, what is written for an entry cannot fail.
  all_goals
    cases replacement with
    | some content => exact stops_pure
    | none => exact stops_tell.bind_done yields_tell fun _ => stops_pure

/-- **Entries are rebuilt up to the first that is refused.** -/
theorem stops_renameEach {rename : Header → Job Option Progress (Bool × Packed)} {done : Rebuilt}
    {headers : List Header} {writes : Header → Bool × Packed → Prop}
    {refusesEntry : Header → Failure → Prop} (yields : ∀ h, Yields (rename h) (writes h))
    (stops : ∀ h, Stops (rename h) (refusesEntry h)) :
    Stops (renameEach rename done headers >>= complete) fun f => ∃ before h after written,
      headers = before ++ h :: after ∧ List.Forall₂ writes before written ∧ refusesEntry h f := by
  induction headers generalizing done with
  | nil => exact (stops_pure (a := done)).congr fun f => by simp
  | cons h rest ih =>
    rw [renameEach_cons_complete]
    refine ((stops h).bind (yields h) fun w => ih).congr fun f => ?_
    constructor
    · rintro (first | ⟨w, wrote, before, h', after, written, rfl, all, later⟩)
      · exact ⟨[], h, rest, [], rfl, .nil, first⟩
      · exact ⟨h :: before, h', after, w :: written, rfl, .cons wrote all, later⟩
    · rintro ⟨_ | ⟨h', before⟩, stop, after, written, split, all, refused⟩
      · cases split
        exact .inl refused
      · cases split
        obtain ⟨w, written, wrote, others, rfl⟩ := List.forall₂_cons_left_iff.mp all
        exact .inr ⟨w, wrote, before, stop, after, written, rfl, others, refused⟩

/-- **What stops an archive, at any depth.** -/
theorem stops_renameNested (depth : Nat) (label : String) (archive : Archive) :
    Stops (renameNested renamer depth label archive >>= complete)
      (RefusesArchive renamer depth label archive) := by
  induction depth generalizing label archive with
  | zero => exact stops_throw.congr fun f => eq_comm
  | succ depth ih =>
    exact stops_renameEach (fun h => yields_renameEntry (yields_renameNested depth)) fun h =>
      stops_renameEntry (yields_renameNested depth) ih

/-- **The failures of an archive** are those by which it is refused. -/
theorem stops_renameArchive : Stops (archive.renameArchive renamer label)
    (RefusesArchive renamer nestingLimit label archive) :=
  stops_renameNested nestingLimit label archive

/-- An archive is refused for one reason only. -/
theorem RefusesArchive.unique {f' : Failure}
    (refused : RefusesArchive renamer nestingLimit label archive f)
    (refused' : RefusesArchive renamer nestingLimit label archive f') : f = f' := by
  obtain ⟨_, fails⟩ := (stops_renameArchive f .start).mpr refused
  obtain ⟨_, fails'⟩ := (stops_renameArchive f' .start).mpr refused'
  exact (fails.unique fails').1

/-- An archive that is refused is not rebuilt. -/
theorem RefusesArchive.not_rebuildsTo
    (refused : RefusesArchive renamer nestingLimit label archive f) :
    ¬ RebuildsTo renamer archive r := by
  intro rebuilt
  obtain ⟨_, fails⟩ := (stops_renameArchive f .start).mpr refused
  obtain ⟨_, does⟩ := rebuilt label .start
  exact does.not_fails fails

end ClassNaming.Archive
