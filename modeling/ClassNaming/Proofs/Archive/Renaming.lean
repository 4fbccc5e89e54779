import Mathlib.Data.List.Forall2
import ClassNaming.Archive.Renaming
import ClassNaming.Proofs.Archive.RoundTrip
import ClassNaming.Proofs.ClassFile.Renaming
import ClassNaming.Proofs.Job

/-!
# What rebuilding does to an archive

What is written for an entry depends on the entry alone, and on what archives in it are rebuilt to:
on no label, and on nothing that was done before.  So the jobs are told by relations between an
archive and what comes of it, one for each level of archives within archives.

The counters are the one thing that jobs hand on.  Since a renamed class is counted where it is
found, at any depth, the counter of the renamed classes grows if and only if the outermost archive
changes.

## Main Definitions

* `Replaces`, `Writes` - what replaces the content of an entry, and what is written for it
* `Rebuilds` - what archives are rebuilt to, by the levels of archives within archives
* `RebuildsTo` - what an archive is rebuilt to
* `Yields` - the results that a job comes to
* `Counts` - a job that counts a renamed class if its result is a new one

## Main Results

* `yields_renameEntry`, `yields_renameNested` - what an entry comes to, and an archive
* `RebuildsTo.unique` - an archive comes to one result only
* `counts_renameNested` - an archive changes if and only if a renamed class is counted
-/

namespace ClassNaming.Archive

variable {α β : Type} {job : Job Option Progress α} {renamer : Renamer} {archive : Archive}
  {h : Header} {r : Rebuilt} {label : String}
  {rebuild : String → Archive → Job Option Progress Rebuilt}
  {inner : Archive → Rebuilt → Prop} {depth : Nat}

/-! ### What is written for an entry -/

/-- What the content of an entry is replaced by, if it is; `inner` tells what archives in it are
rebuilt to. -/
inductive Replaces (renamer : Renamer) (inner : Archive → Rebuilt → Prop) (archive : Archive)
    (h : Header) : Option ByteArray → Prop
  | other (kind : h.kind = .other) : Replaces renamer inner archive h none
  | keptClass {content : ByteArray} {why : Kept} (kind : h.kind = .classFile)
      (read : archive.content h = .ok content)
      (verdict : renameClass renamer content.data.toList = some (.ok (.kept why))) :
      Replaces renamer inner archive h none
  | renamedClass {content : ByteArray} {bytes : List UInt8} (kind : h.kind = .classFile)
      (read : archive.content h = .ok content)
      (verdict : renameClass renamer content.data.toList = some (.ok (.renamed bytes))) :
      Replaces renamer inner archive h (some (ofOctets bytes))
  | keptArchive {content : ByteArray} {a : Archive} {r : Rebuilt} (kind : h.kind = .archive)
      (read : archive.content h = .ok content) (opened : Archive.ofBytes content = .ok a)
      (rebuilt : inner a r) (same : r.changed = false) : Replaces renamer inner archive h none
  | rebuiltArchive {content : ByteArray} {a : Archive} {r : Rebuilt} (kind : h.kind = .archive)
      (read : archive.content h = .ok content) (opened : Archive.ofBytes content = .ok a)
      (rebuilt : inner a r) (changed : r.changed = true) :
      Replaces renamer inner archive h (some (encode r.entries))

/-- An entry with its raw content, or with what replaces its content. -/
def Header.packed (h : Header) (raw : ByteArray) : Option ByteArray → Bool × Packed
  | none => (false, .copied h h.writtenName raw)
  | some content => (true, .renewed h h.writtenName content)

/-- What is written for an entry, and whether it is new. -/
def Writes (renamer : Renamer) (inner : Archive → Rebuilt → Prop) (archive : Archive) (h : Header)
    (written : Bool × Packed) : Prop :=
  ∃ raw replacement, archive.rawContent h = .ok raw ∧
    Replaces renamer inner archive h replacement ∧ written = h.packed raw replacement

/-- The entries done so far, with more of them. -/
def Rebuilt.addAll (done : Rebuilt) (written : List (Bool × Packed)) : Rebuilt :=
  written.foldl (fun r w => r.add w.1 w.2) done

/-- What archives are rebuilt to that hold archives so many levels deep. -/
def Rebuilds (renamer : Renamer) : Nat → Archive → Rebuilt → Prop
  | 0, _, _ => False
  | depth + 1, archive, r => ∃ written,
      List.Forall₂ (Writes renamer (Rebuilds renamer depth) archive) archive.headers written ∧
      r = .addAll .start written

/-! ### What the jobs do -/

/-- A job comes to certain results, whatever progress there was. -/
def Yields (job : Job Option Progress α) (results : α → Prop) : Prop :=
  ∀ a p, (∃ p', Does job p a p') ↔ results a

/-- The results may be described in another way. -/
theorem Yields.congr {results results' : α → Prop} (yields : Yields job results)
    (same : ∀ a, results a ↔ results' a) : Yields job results' :=
  fun a p => (yields a p).trans (same a)

theorem yields_pure {a : α} : Yields (pure a) (a = ·) := fun _ _ => by simp

theorem yields_count {step : Tally → Tally} : Yields (count step) fun _ => True :=
  fun _ _ => ⟨fun _ => trivial, fun _ => ⟨_, does_modify.mpr rfl⟩⟩

theorem yields_tell {e : Event} : Yields (tell e) fun _ => True :=
  fun _ _ => ⟨fun _ => trivial, fun _ => ⟨_, does_modify.mpr rfl⟩⟩

/-- What is demanded is the value that is there. -/
theorem yields_demand {ε : Type} {cause : ε → Cause} {x : Except ε α} :
    Yields (demand cause x) (x = .ok ·) := fun _ _ => by simp

/-- What is awaited is the value that is there, if it comes. -/
theorem yields_await {ε : Type} {cause : ε → Cause} {x : Option (Except ε α)} :
    Yields (await cause x) fun a => x = some (.ok a) := fun _ _ => by simp

/-- What a job is done for makes no difference to its results. -/
theorem Yields.during {results : α → Prop} {action : Action} (yields : Yields job results) :
    Yields (job.during action) results := fun a p => by simpa using yields a p

/-- The results of two jobs in a row are those of the second after one of the first. -/
theorem Yields.bind {next : α → Job Option Progress β} {results : α → Prop} {later : α → β → Prop}
    (yields : Yields job results) (rest : ∀ a, Yields (next a) (later a)) :
    Yields (job >>= next) fun b => ∃ a, results a ∧ later a b := by
  intro b p
  simp only [does_bind]
  constructor
  · rintro ⟨p', a, t, first, second⟩
    exact ⟨a, (yields a p).mp ⟨t, first⟩, (rest a b t).mp ⟨p', second⟩⟩
  · rintro ⟨a, first, second⟩
    obtain ⟨t, first⟩ := (yields a p).mpr first
    obtain ⟨p', second⟩ := (rest a b t).mpr second
    exact ⟨p', a, t, first, second⟩

/-- Reading a content is no progress. -/
theorem does_readContent {location : String} {content : ByteArray} {p p' : Progress} :
    Does (archive.readContent h location) p content p' ↔
      archive.content h = .ok content ∧ p = p' := by
  unfold readContent
  split
  case h_1 found => simp [found]
  case h_2 e found => simp [found]
  case h_3 e found => simp [found]

/-- What is read of an entry is its content. -/
theorem yields_readContent {location : String} :
    Yields (archive.readContent h location) (archive.content h = .ok ·) :=
  fun content p => by simp [does_readContent]

/-- A class is replaced if it is renamed. -/
theorem yields_renameClassEntry {location : String} (kind : h.kind = .classFile) :
    Yields (renameClassEntry renamer archive h location) (Replaces renamer inner archive h) := by
  unfold renameClassEntry
  refine Yields.congr (yields_count.bind fun _ => yields_readContent.bind fun content =>
    yields_await.during.bind fun verdict => (?_ : Yields _ fun replacement =>
      (∃ bytes, verdict = .renamed bytes ∧ replacement = some (ofOctets bytes)) ∨
      ∃ why, verdict = .kept why ∧ replacement = none)) fun replacement => ?_
  · cases verdict with
    | renamed bytes =>
      exact (yields_count.bind fun _ => yields_tell.bind fun _ => yields_pure).congr
        fun r => by simp [eq_comm]
    | kept why =>
      dsimp only
      split
      · exact (yields_tell.bind fun _ => yields_pure).congr fun r => by simp [eq_comm]
      · exact yields_pure.congr fun r => by simp [eq_comm]
  · constructor
    · rintro ⟨_, -, content, read, _, verdict, ⟨bytes, rfl, rfl⟩ | ⟨why, rfl, rfl⟩⟩
      · exact .renamedClass kind read verdict
      · exact .keptClass kind read verdict
    · rintro (⟨other⟩ | ⟨-, read, verdict⟩ | ⟨-, read, verdict⟩ | ⟨other⟩ | ⟨other⟩)
      · cases kind.symm.trans other
      · exact ⟨(), trivial, _, read, _, verdict, .inr ⟨_, rfl, rfl⟩⟩
      · exact ⟨(), trivial, _, read, _, verdict, .inl ⟨_, rfl, rfl⟩⟩
      · cases kind.symm.trans other
      · cases kind.symm.trans other

/-- An archive is replaced if what it is rebuilt to changed. -/
theorem yields_renameArchiveEntry {location : String} (kind : h.kind = .archive)
    (yields : ∀ label a, Yields (rebuild label a) (inner a)) :
    Yields (renameArchiveEntry rebuild archive h location) (Replaces renamer inner archive h) := by
  unfold renameArchiveEntry
  refine Yields.congr (yields_count.bind fun _ => yields_readContent.bind fun content =>
    yields_demand.during.bind fun a => (yields location a).bind fun r =>
      (?_ : Yields _ fun replacement =>
        replacement = if r.changed then some (encode r.entries) else none)) fun replacement => ?_
  · split
    · exact (yields_count.bind fun _ => yields_tell.bind fun _ => yields_pure).congr
        fun r => by simp [eq_comm]
    · exact yields_pure.congr fun r => by simp [eq_comm]
  · constructor
    · rintro ⟨_, -, content, read, a, opened, r, rebuilt, rfl⟩
      by_cases changed : r.changed = true
      · rw [if_pos changed]
        exact .rebuiltArchive kind read opened rebuilt changed
      · rw [if_neg changed]
        exact .keptArchive kind read opened rebuilt (Bool.not_eq_true _ ▸ changed)
    · rintro (⟨other⟩ | ⟨other⟩ | ⟨other⟩ | ⟨-, read, opened, rebuilt, same⟩ |
        ⟨-, read, opened, rebuilt, changed⟩)
      · cases kind.symm.trans other
      · cases kind.symm.trans other
      · cases kind.symm.trans other
      · exact ⟨(), trivial, _, read, _, opened, _, rebuilt, by simp [same]⟩
      · exact ⟨(), trivial, _, read, _, opened, _, rebuilt, by simp [changed]⟩

/-- Anything else is not replaced. -/
theorem yields_none (kind : h.kind = .other) :
    Yields (pure none) (Replaces renamer inner archive h) := by
  refine yields_pure.congr fun replacement => ?_
  constructor
  · rintro rfl
    exact .other kind
  · rintro (_ | ⟨other⟩ | ⟨other⟩ | ⟨other⟩ | ⟨other⟩)
    · rfl
    · cases kind.symm.trans other
    · cases kind.symm.trans other
    · cases kind.symm.trans other
    · cases kind.symm.trans other

/-- **What is written for an entry.** -/
theorem yields_renameEntry (yields : ∀ label a, Yields (rebuild label a) (inner a)) :
    Yields (renameEntry renamer rebuild label archive h) (Writes renamer inner archive h) := by
  unfold renameEntry
  cases kind : h.kind
  case' classFile =>
    have replaced : Yields (renameClassEntry renamer archive h (h.location label))
        (Replaces renamer inner archive h) := yields_renameClassEntry kind
  case' archive =>
    have replaced : Yields (renameArchiveEntry rebuild archive h (h.location label))
        (Replaces renamer inner archive h) := yields_renameArchiveEntry kind yields
  case' other =>
    have replaced : Yields (pure none) (Replaces renamer inner archive h) := yields_none kind
  all_goals
    refine Yields.congr (yields_demand.bind fun raw => replaced.bind fun replacement =>
      (?_ : Yields _ (· = h.packed raw replacement))) fun w => by simp [Writes]
    cases replacement with
    | some content => exact yields_pure.congr fun w => eq_comm
    | none =>
      exact (yields_tell.bind fun _ => yields_pure).congr fun w => by
        simp [Header.packed, eq_comm]

/-! ### Whole archives -/

/-- An archive is complete if no entry failed. -/
theorem does_complete {work : Job Option Progress (Rebuilt × Option Failure)} {p p' : Progress} :
    Does (work >>= complete) p r p' ↔ Does work p (r, none) p' := by
  rw [does_bind]
  constructor
  · rintro ⟨⟨rebuilt, failure⟩, t, does, ends⟩
    cases failure with
    | none =>
      obtain ⟨rfl, rfl⟩ := does_pure.mp ends
      exact does
    | some f => exact absurd ends does_throw
  · intro does
    exact ⟨(r, none), p', does, does_pure.mpr ⟨rfl, rfl⟩⟩

variable {rename : Header → Job Option Progress (Bool × Packed)} {done : Rebuilt}
  {writes : Header → Bool × Packed → Prop} {headers : List Header}

/-- The first entry is rebuilt, and then the others. -/
theorem renameEach_cons_complete : renameEach rename done (h :: headers) >>= complete =
    rename h >>= fun w => renameEach rename (done.add w.1 w.2) headers >>= complete := by
  refine eq_of_ending fun p => ?_
  have each : ending (renameEach rename done (h :: headers)) p = ending (rename h) p >>= _ := rfl
  rw [ending_bind, ending_bind, each]
  rcases ending (rename h) p with - | ⟨failure | ⟨isNew, entry⟩, t⟩
  · rfl
  · rfl
  · exact ending_bind.symm

/-- **Entries are rebuilt one by one.** -/
theorem yields_renameEach (yields : ∀ h, Yields (rename h) (writes h)) :
    Yields (renameEach rename done headers >>= complete) fun r =>
      ∃ written, List.Forall₂ writes headers written ∧ r = done.addAll written := by
  induction headers generalizing done with
  | nil => exact (yields_pure (a := done)).congr fun r => by simp [Rebuilt.addAll, eq_comm]
  | cons h rest ih =>
    rw [renameEach_cons_complete]
    refine ((yields h).bind fun w => ih).congr fun r => ?_
    simp only [List.forall₂_cons_left_iff]
    constructor
    · rintro ⟨w, first, written, all, rfl⟩
      exact ⟨w :: written, ⟨w, written, first, all, rfl⟩, rfl⟩
    · rintro ⟨_, ⟨w, written, first, all, rfl⟩, rfl⟩
      exact ⟨w, first, written, all, rfl⟩

/-- **Archives are rebuilt entry by entry, at any depth.** -/
theorem yields_renameNested (depth : Nat) (label : String) (archive : Archive) :
    Yields (renameNested renamer depth label archive >>= complete)
      (Rebuilds renamer depth archive) := by
  induction depth generalizing label archive with
  | zero =>
    intro r p
    simp only [does_complete, renameNested, does_pure, Rebuilds]
    simp
  | succ depth ih => exact yields_renameEach fun h => yields_renameEntry ih

/-- **The results of renaming an archive** are its rebuilt forms. -/
theorem yields_renameArchive : Yields (archive.renameArchive renamer label)
    (Rebuilds renamer nestingLimit archive) :=
  yields_renameNested nestingLimit label archive

/-- What an archive is rebuilt to, whatever it is called and whatever progress there was. -/
def RebuildsTo (renamer : Renamer) (archive : Archive) (r : Rebuilt) : Prop :=
  ∀ label p, ∃ p', Does (archive.renameArchive renamer label) p r p'

/-- An archive is rebuilt to what it yields. -/
theorem rebuildsTo_iff :
    RebuildsTo renamer archive r ↔ Rebuilds renamer nestingLimit archive r :=
  ⟨fun rebuilt => (yields_renameArchive r .start).mp (rebuilt "" .start),
    fun rebuilds _ p => (yields_renameArchive r p).mpr rebuilds⟩

/-- An archive is rebuilt in one way only. -/
theorem RebuildsTo.unique {r' : Rebuilt} (rebuilt : RebuildsTo renamer archive r)
    (rebuilt' : RebuildsTo renamer archive r') : r = r' := by
  obtain ⟨_, does⟩ := rebuilt "" .start
  obtain ⟨_, does'⟩ := rebuilt' "" .start
  exact (does.unique does').1

/-! ### Counting -/

/-- A job counts renamed classes if and only if its result is a new one.  The flag tells whether one
was counted before the job. -/
def Counts (before : Bool) (job : Job Option Progress α) (isNew : α → Bool) : Prop :=
  ∀ p a p', Does job p a p' → p.tally.classesRenamed ≤ p'.tally.classesRenamed ∧
    (before || decide (p.tally.classesRenamed < p'.tally.classesRenamed)) = isNew a

section Counts

variable {before : Bool} {isNew : α → Bool}

private theorem decide_lt_or {i j k : Nat} (le : i ≤ j) (le' : j ≤ k) :
    (decide (i < j) || decide (j < k)) = decide (i < k) := by
  rw [Bool.eq_iff_iff]
  simp only [Bool.or_eq_true, decide_eq_true_eq]
  omega

/-- A job that does nothing counts nothing. -/
theorem counts_pure {a : α} (same : isNew a = before) : Counts before (pure a) isNew := by
  intro p b p' does
  obtain ⟨rfl, rfl⟩ := does_pure.mp does
  simp [same]

/-- A step that leaves the number of renamed classes alone. -/
theorem counts_count {step : Tally → Tally}
    (keeps : ∀ t, (step t).classesRenamed = t.classesRenamed) :
    Counts before (count step) fun _ => before := by
  intro p _ p' does
  obtain rfl := does_modify.mp does
  simp [Progress.count, keeps]

/-- When a renamed class is counted, there is one. -/
theorem counts_renameClass : Counts before (count .renameClass) fun _ => true := by
  intro p _ p' does
  obtain rfl := does_modify.mp does
  simp [Progress.count, Tally.renameClass]

theorem counts_tell {e : Event} : Counts before (tell e) fun _ => before := by
  intro p _ p' does
  obtain rfl := does_modify.mp does
  simp [Progress.tell]

theorem counts_demand {ε : Type} {cause : ε → Cause} {x : Except ε α} :
    Counts before (demand cause x) fun _ => before := by
  intro p a p' does
  obtain ⟨-, rfl⟩ := does_demand.mp does
  simp

theorem counts_await {ε : Type} {cause : ε → Cause} {x : Option (Except ε α)} :
    Counts before (await cause x) fun _ => before := by
  intro p a p' does
  obtain ⟨-, rfl⟩ := does_await.mp does
  simp

/-- What a job is done for makes no difference to what it counts. -/
theorem Counts.during {action : Action} (counts : Counts before job isNew) :
    Counts before (job.during action) isNew :=
  fun p a p' does => counts p a p' (does_during.mp does)

/-- Two jobs in a row count together. -/
theorem Counts.bind {next : α → Job Option Progress β} {isLaterNew : β → Bool}
    (counts : Counts before job isNew) (rest : ∀ a, Counts (isNew a) (next a) isLaterNew) :
    Counts before (job >>= next) isLaterNew := by
  intro p b p' does
  obtain ⟨a, t, first, second⟩ := does_bind.mp does
  obtain ⟨le, same⟩ := counts p a t first
  obtain ⟨le', same'⟩ := rest a t b p' second
  exact ⟨le.trans le', by rw [← same', ← same, Bool.or_assoc, decide_lt_or le le']⟩

/-- Whatever was counted before adds to what a job counts. -/
theorem Counts.carry (counts : Counts false job isNew) (before : Bool) :
    Counts before job fun a => before || isNew a := by
  intro p a p' does
  obtain ⟨le, same⟩ := counts p a p' does
  exact ⟨le, congrArg (before || ·) (same.symm.trans (Bool.false_or _)).symm⟩

theorem counts_readContent {location : String} :
    Counts before (archive.readContent h location) fun _ => before := by
  intro p content p' does
  obtain ⟨-, rfl⟩ := does_readContent.mp does
  simp

end Counts

/-- A class entry counts as renamed if its content is new. -/
theorem counts_renameClassEntry {location : String} :
    Counts false (renameClassEntry renamer archive h location) Option.isSome := by
  unfold renameClassEntry
  refine Counts.bind (counts_count fun _ => rfl) fun _ => counts_readContent.bind fun content =>
    counts_await.during.bind fun verdict => ?_
  cases verdict with
  | renamed bytes =>
    exact counts_renameClass.bind fun _ => counts_tell.bind fun _ => counts_pure rfl
  | kept why =>
    dsimp only
    split
    · exact counts_tell.bind fun _ => counts_pure rfl
    · exact counts_pure rfl

/-- An archive in an archive is new if a class in it was counted. -/
theorem counts_renameArchiveEntry {location : String}
    (counts : ∀ label a, Counts false (rebuild label a) Rebuilt.changed) :
    Counts false (renameArchiveEntry rebuild archive h location) Option.isSome := by
  unfold renameArchiveEntry
  refine Counts.bind (counts_count fun _ => rfl) fun _ => counts_readContent.bind fun content =>
    counts_demand.during.bind fun a => (counts location a).bind fun r => ?_
  cases changed : r.changed with
  | true =>
    rw [if_pos rfl]
    exact Counts.bind (counts_count fun _ => rfl) fun _ => counts_tell.bind fun _ =>
      counts_pure rfl
  | false =>
    rw [if_neg (by decide)]
    exact counts_pure rfl

/-- So is any entry. -/
theorem counts_renameEntry
    (counts : ∀ label a, Counts false (rebuild label a) Rebuilt.changed) :
    Counts false (renameEntry renamer rebuild label archive h) Prod.fst := by
  unfold renameEntry
  refine counts_demand.bind fun raw => ?_
  dsimp only
  cases h.kind
  case' classFile => refine counts_renameClassEntry.bind fun replacement => ?_
  case' archive => refine (counts_renameArchiveEntry counts).bind fun replacement => ?_
  case' other =>
    refine @Counts.bind _ _ (pure none) false Option.isSome _ _ (counts_pure rfl)
      fun replacement => ?_
  all_goals
    cases replacement with
    | some content => exact counts_pure rfl
    | none => exact counts_tell.bind fun _ => counts_pure rfl

/-- A row of entries is new if it was before, or one of them is. -/
theorem counts_renameEach (counts : ∀ h, Counts false (rename h) Prod.fst) :
    Counts done.changed (renameEach rename done headers >>= complete) Rebuilt.changed := by
  induction headers generalizing done with
  | nil => exact counts_pure rfl
  | cons h rest ih =>
    rw [renameEach_cons_complete]
    exact ((counts h).carry done.changed).bind fun w => ih

/-- **A renamed class is counted if and only if the archive changes.** -/
theorem counts_renameNested (depth : Nat) (label : String) (archive : Archive) :
    Counts false (renameNested renamer depth label archive >>= complete) Rebuilt.changed := by
  induction depth generalizing label archive with
  | zero =>
    intro p r p' does
    rw [does_complete] at does
    cases (does_pure.mp does).1
  | succ depth ih =>
    exact @counts_renameEach _ .start _ fun h => counts_renameEntry ih

/-- **An archive is new if and only if a renamed class was counted in it**, at whatever depth. -/
theorem counts_renameArchive : Counts false (archive.renameArchive renamer label) Rebuilt.changed :=
  counts_renameNested nestingLimit label archive

end ClassNaming.Archive
