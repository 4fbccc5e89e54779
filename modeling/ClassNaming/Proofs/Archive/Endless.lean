import ClassNaming.Proofs.Archive.Renaming
import ClassNaming.Proofs.ClassFile.Kept

/-!
# Archives that are rebuilt for ever

A detail may be renamed for ever.  Then the class that holds it is renamed for ever, and so is the
archive that holds the class rebuilt, at any depth.  Nothing else in an archive is without end.

Like a failure, this happens at the first entry that is so, once all entries before it were rebuilt;
and which entry that is depends on the archive alone.

## Main Definitions

* `EndlessEntry` - an entry that is rebuilt for ever
* `EndlessArchive` - an archive that is, by the levels of archives within archives
* `Lasts` - when a job goes on for ever

## Main Results

* `lasts_renameEntry`, `lasts_renameNested` - when rebuilding an entry goes on, and an archive
-/

namespace ClassNaming.Archive

variable {α β : Type} {job : Job Option Progress α} {renamer : Renamer} {archive : Archive}
  {h : Header} {label location : String} {endless : Prop}
  {rebuild : String → Archive → Job Option Progress Rebuilt} {inner : Archive → Rebuilt → Prop}
  {forever : Archive → Prop}

/-! ### Entries and archives without end -/

/-- An entry is rebuilt for ever if it is a class with a detail that is renamed for ever, or an
archive that is rebuilt for ever; `forever` tells which archives are. -/
inductive EndlessEntry (renamer : Renamer) (forever : Archive → Prop) (archive : Archive)
    (h : Header) : Prop
  | classFile {raw content : ByteArray} (found : archive.rawContent h = .ok raw)
      (kind : h.kind = .classFile) (read : archive.content h = .ok content)
      (endless : EndlessClass renamer content.data.toList) :
      EndlessEntry renamer forever archive h
  | archive {raw content : ByteArray} {a : Archive} (found : archive.rawContent h = .ok raw)
      (kind : h.kind = .archive) (read : archive.content h = .ok content)
      (opened : Archive.ofBytes content = .ok a) (endless : forever a) :
      EndlessEntry renamer forever archive h

/-- An archive that may hold archives so many levels deep is rebuilt for ever if an entry is, and
all entries before it can be rebuilt. -/
def EndlessArchive (renamer : Renamer) : Nat → Archive → Prop
  | 0, _ => False
  | depth + 1, archive => ∃ before h after written, archive.headers = before ++ h :: after ∧
      List.Forall₂ (Writes renamer (Rebuilds renamer depth) archive) before written ∧
      EndlessEntry renamer (EndlessArchive renamer depth) archive h

/-! ### When the jobs go on -/

/-- A job goes on for ever just in a certain case, whatever progress there was. -/
def Lasts (job : Job Option Progress α) (endless : Prop) : Prop :=
  ∀ p, GoesOn job p ↔ endless

/-- The condition may be stated in another way. -/
theorem Lasts.congr {endless' : Prop} (lasts : Lasts job endless) (same : endless ↔ endless') :
    Lasts job endless' :=
  fun p => (lasts p).trans same

theorem lasts_pure {a : α} : Lasts (pure a) False := fun _ => by simp

theorem lasts_throw {failure : Failure} : Lasts (throw failure : Job Option Progress α) False :=
  fun _ => by simp

theorem lasts_count {step : Tally → Tally} : Lasts (count step) False :=
  fun _ => by simp [count]

theorem lasts_tell {e : Event} : Lasts (tell e) False := fun _ => by simp [tell]

theorem lasts_demand {ε : Type} {cause : ε → Cause} {x : Except ε α} :
    Lasts (demand cause x) False := fun _ => by simp

/-- Waiting for what never comes is waiting for ever. -/
theorem lasts_await {ε : Type} {cause : ε → Cause} {x : Option (Except ε α)} :
    Lasts (await cause x) (x = none) := fun _ => by simp

/-- What a job is done for makes no difference to whether it ends. -/
theorem Lasts.during {action : Action} (lasts : Lasts job endless) :
    Lasts (job.during action) endless := fun p => by simpa using lasts p

/-- Of two jobs, the first one goes on, or it does its work and the second one goes on. -/
theorem Lasts.bind {next : α → Job Option Progress β} {results : α → Prop} {later : α → Prop}
    (lasts : Lasts job endless) (yields : Yields job results)
    (rest : ∀ a, Lasts (next a) (later a)) :
    Lasts (job >>= next) (endless ∨ ∃ a, results a ∧ later a) := by
  intro p
  rw [goesOn_bind, lasts p]
  constructor
  · rintro (first | ⟨a, t, first, second⟩)
    · exact .inl first
    · exact .inr ⟨a, (yields a p).mp ⟨t, first⟩, (rest a t).mp second⟩
  · rintro (first | ⟨a, first, second⟩)
    · exact .inl first
    · obtain ⟨t, first⟩ := (yields a p).mpr first
      exact .inr ⟨a, t, first, (rest a t).mpr second⟩

/-- A job whose second part comes to an end. -/
theorem Lasts.bind_ends {next : α → Job Option Progress β} {results : α → Prop}
    (lasts : Lasts job endless) (yields : Yields job results)
    (rest : ∀ a, Lasts (next a) False) : Lasts (job >>= next) endless :=
  (lasts.bind yields rest).congr (by simp)

/-- Reading an entry always comes to an end. -/
theorem lasts_readContent : Lasts (archive.readContent h location) False := by
  intro p
  unfold readContent
  split <;> simp [Job.fail]

/-- So does completing an archive. -/
theorem lasts_complete {result : Rebuilt × Option Failure} : Lasts (complete result) False := by
  rcases result with ⟨r, - | failure⟩
  · exact lasts_pure
  · exact lasts_throw

/-- A class is renamed for ever if there is no verdict on it. -/
theorem lasts_renameClassEntry : Lasts (renameClassEntry renamer archive h location)
    (∃ content, archive.content h = .ok content ∧ EndlessClass renamer content.data.toList) := by
  unfold renameClassEntry
  refine (lasts_count.bind yields_count fun _ => lasts_readContent.bind yields_readContent
    fun content => lasts_await.during.bind_ends yields_await.during fun verdict => ?_).congr ?_
  · cases verdict with
    | renamed bytes =>
      exact lasts_count.bind_ends yields_count fun _ => lasts_tell.bind_ends yields_tell fun _ =>
        lasts_pure
    | kept why =>
      dsimp only
      split
      · exact lasts_tell.bind_ends yields_tell fun _ => lasts_pure
      · exact lasts_pure
  · simp [renameClass_eq_none_iff]

/-- An archive in an archive is renamed for ever just if it opens and rebuilding it goes on. -/
theorem lasts_renameArchiveEntry (yields : ∀ label a, Yields (rebuild label a) (inner a))
    (lasts : ∀ label a, Lasts (rebuild label a) (forever a)) :
    Lasts (renameArchiveEntry rebuild archive h location) (∃ content a,
      archive.content h = .ok content ∧ Archive.ofBytes content = .ok a ∧ forever a) := by
  unfold renameArchiveEntry
  refine (lasts_count.bind yields_count fun _ => lasts_readContent.bind yields_readContent
    fun content => lasts_demand.during.bind yields_demand.during fun a =>
      (lasts location a).bind_ends (yields location a) fun r => ?_).congr ?_
  · split
    · exact lasts_count.bind_ends yields_count fun _ => lasts_tell.bind_ends yields_tell fun _ =>
        lasts_pure
    · exact lasts_pure
  · simp

/-- **When rebuilding an entry goes on for ever.** -/
theorem lasts_renameEntry (yields : ∀ label a, Yields (rebuild label a) (inner a))
    (lasts : ∀ label a, Lasts (rebuild label a) (forever a)) :
    Lasts (renameEntry renamer rebuild label archive h)
      (EndlessEntry renamer forever archive h) := by
  -- Once its content is settled, what is written for an entry is clear.
  have ends : ∀ raw replacement, Lasts (match replacement with
      | some content => pure (true, Packed.renewed h h.writtenName content)
      | none => do
        tell (.copied (h.location label))
        return (false, Packed.copied h h.writtenName raw)) False := by
    rintro raw (- | content)
    · exact lasts_tell.bind_ends yields_tell fun _ => lasts_pure
    · exact lasts_pure
  unfold renameEntry
  cases kind : h.kind with
  | classFile =>
    have replaced : Yields (renameClassEntry renamer archive h (h.location label))
        (Replaces renamer inner archive h) := yields_renameClassEntry kind
    refine (lasts_demand.bind yields_demand fun raw =>
      lasts_renameClassEntry.bind_ends replaced (ends raw)).congr ⟨?_, ?_⟩
    · rintro (⟨⟨⟩⟩ | ⟨raw, found, content, read, endless⟩)
      exact .classFile found kind read endless
    · rintro (⟨found, -, read, endless⟩ | ⟨-, other⟩)
      · exact .inr ⟨_, found, _, read, endless⟩
      · cases kind.symm.trans other
  | archive =>
    have replaced : Yields (renameArchiveEntry rebuild archive h (h.location label))
        (Replaces renamer inner archive h) := yields_renameArchiveEntry kind yields
    refine (lasts_demand.bind yields_demand fun raw =>
      (lasts_renameArchiveEntry yields lasts).bind_ends replaced (ends raw)).congr ⟨?_, ?_⟩
    · rintro (⟨⟨⟩⟩ | ⟨raw, found, content, a, read, opened, endless⟩)
      exact .archive found kind read opened endless
    · rintro (⟨-, other⟩ | ⟨found, -, read, opened, endless⟩)
      · cases kind.symm.trans other
      · exact .inr ⟨_, found, _, _, read, opened, endless⟩
  | other =>
    refine (lasts_demand.bind_ends yields_demand fun raw =>
      lasts_pure.bind_ends yields_pure (ends raw)).congr ⟨nofun, ?_⟩
    rintro (⟨-, other⟩ | ⟨-, other⟩) <;> cases kind.symm.trans other

/-- **Entries are rebuilt up to the first that is rebuilt for ever.** -/
theorem lasts_renameEach {rename : Header → Job Option Progress (Bool × Packed)} {done : Rebuilt}
    {headers : List Header} {writes : Header → Bool × Packed → Prop} {endless : Header → Prop}
    (yields : ∀ h, Yields (rename h) (writes h)) (lasts : ∀ h, Lasts (rename h) (endless h)) :
    Lasts (renameEach rename done headers >>= complete) (∃ before h after written,
      headers = before ++ h :: after ∧ List.Forall₂ writes before written ∧ endless h) := by
  induction headers generalizing done with
  | nil => exact (lasts_pure (a := done)).congr (by simp)
  | cons h rest ih =>
    rw [renameEach_cons_complete]
    refine ((lasts h).bind (yields h) fun w => ih).congr ⟨?_, ?_⟩
    · rintro (first | ⟨w, wrote, before, h', after, written, rfl, all, later⟩)
      · exact ⟨[], h, rest, [], rfl, .nil, first⟩
      · exact ⟨h :: before, h', after, w :: written, rfl, .cons wrote all, later⟩
    · rintro ⟨_ | ⟨h', before⟩, stop, after, written, split, all, forever⟩
      · cases split
        exact .inl forever
      · cases split
        obtain ⟨w, written, wrote, others, rfl⟩ := List.forall₂_cons_left_iff.mp all
        exact .inr ⟨w, wrote, before, stop, after, written, rfl, others, forever⟩

/-- **When rebuilding an archive goes on for ever, at any depth.** -/
theorem lasts_renameNested (depth : Nat) (label : String) (archive : Archive) :
    Lasts (renameNested renamer depth label archive >>= complete)
      (EndlessArchive renamer depth archive) := by
  induction depth generalizing label archive with
  | zero => exact lasts_throw
  | succ depth ih =>
    exact lasts_renameEach (fun h => yields_renameEntry (yields_renameNested depth)) fun h =>
      lasts_renameEntry (yields_renameNested depth) ih

/-- An archive is rebuilt as far as possible, but for one that is rebuilt for ever. -/
theorem lasts_renameAsFarAsPossible : Lasts (archive.renameAsFarAsPossible renamer label)
    (EndlessArchive renamer nestingLimit archive) := by
  intro p
  rw [← lasts_renameNested nestingLimit label archive p, goesOn_bind]
  refine (or_iff_left ?_).symm
  rintro ⟨result, t, -, goesOn⟩
  exact (lasts_complete t).mp goesOn

end ClassNaming.Archive
