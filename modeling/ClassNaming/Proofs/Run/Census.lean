import ClassNaming.Proofs.Run.StoppedAt

/-!
# What the counters count

The entries of an archive, with those of the archives in it at any depth, are a tree.  A census of
the tree counts its classes and archives, those that are renamed, and those that hold a renamed
class.  No order and no state plays a part in it.

The counters of a run come about otherwise: they are handed on from one entry to the next, and into
every archive and out of it again.  Nevertheless they grow by a census of the archive whenever it is
rebuilt.  If it cannot be rebuilt, they stop somewhere on the way, where no more classes were
renamed than were seen, and no more archives were rebuilt.

## Main Definitions

* `Unpacked` - an entry, with all entries in it
* `census` - how many classes and archives there are in entries, and how many that change
* `Unpacks` - what the entries of an archive are
* `TakesCensus` - a job that counts what it finds

## Main Results

* `Unpacks.unique` - an archive is unpacked in one way only
* `takesCensus_renameNested` - rebuilding an archive counts what it holds, at any depth
* `renameArchive_takes_census` - what becomes of the counters
-/

namespace ClassNaming

attribute [ext] Tally

namespace Tally

/-- Two tallies taken together. -/
instance : Add Tally where
  add t u := ⟨t.classesSeen + u.classesSeen, t.classesRenamed + u.classesRenamed,
    t.archivesSeen + u.archivesSeen, t.archivesRebuilt + u.archivesRebuilt⟩

variable {t u v : Tally}

/-- The numbers of a sum of tallies are sums. -/
@[simp] theorem classesSeen_add : (t + u).classesSeen = t.classesSeen + u.classesSeen := rfl

@[simp] theorem classesRenamed_add :
    (t + u).classesRenamed = t.classesRenamed + u.classesRenamed := rfl

@[simp] theorem archivesSeen_add : (t + u).archivesSeen = t.archivesSeen + u.archivesSeen := rfl

@[simp] theorem archivesRebuilt_add :
    (t + u).archivesRebuilt = t.archivesRebuilt + u.archivesRebuilt := rfl

/-- To count an archive is to add a tally. -/
theorem seeArchive_eq : t.seeArchive = t + ⟨0, 0, 1, 0⟩ := rfl

/-- So it is with a rebuilt one. -/
theorem rebuildArchive_eq : t.rebuildArchive = t + ⟨0, 0, 0, 1⟩ := rfl

theorem add_zero : t + zero = t := rfl

theorem add_assoc : t + u + v = t + (u + v) := by
  ext <;> simp [Nat.add_assoc]

/-- At most as many classes were renamed as were seen, and at most as many archives rebuilt. -/
structure Bounded (t : Tally) : Prop where
  classes : t.classesRenamed ≤ t.classesSeen
  archives : t.archivesRebuilt ≤ t.archivesSeen

theorem bounded_zero : zero.Bounded := ⟨Nat.le_refl _, Nat.le_refl _⟩

/-- Two tallies that count no more renamed things than things have such a sum. -/
theorem Bounded.add (bounded : t.Bounded) (bounded' : u.Bounded) : (t + u).Bounded :=
  ⟨Nat.add_le_add bounded.classes bounded'.classes,
    Nat.add_le_add bounded.archives bounded'.archives⟩

end Tally

namespace Archive

/-- An entry of an archive with all that is in it.  Of a class it counts whether it is renamed. -/
inductive Unpacked where
  | other
  | classFile (isRenamed : Bool)
  | archive (entries : List Unpacked)

namespace Unpacked

/-- The entry, and all entries in it at any depth. -/
def all : Unpacked → List Unpacked
  | other => [other]
  | classFile isRenamed => [classFile isRenamed]
  | archive entries => archive entries :: allOf entries
where
  /-- Entries, and all entries in them. -/
  allOf : List Unpacked → List Unpacked
    | [] => []
    | entry :: rest => all entry ++ allOf rest

def isClass : Unpacked → Bool
  | classFile _ => true
  | _ => false

def isRenamedClass : Unpacked → Bool
  | classFile isRenamed => isRenamed
  | _ => false

def isArchive : Unpacked → Bool
  | archive _ => true
  | _ => false

/-- Whether the entry is an archive that holds a renamed class, at any depth. -/
def isRebuiltArchive : Unpacked → Bool
  | archive entries => (all.allOf entries).any isRenamedClass
  | _ => false

end Unpacked

open Unpacked (isClass isRenamedClass isArchive isRebuiltArchive)
open Unpacked.all (allOf)

/-- How many classes and archives there are in entries, at any depth, how many of the classes are
renamed, and how many of the archives hold such a class. -/
def census (entries : List Unpacked) : Tally where
  classesSeen := (allOf entries).countP isClass
  classesRenamed := (allOf entries).countP isRenamedClass
  archivesSeen := (allOf entries).countP isArchive
  archivesRebuilt := (allOf entries).countP isRebuiltArchive

/-- What entries of an archive are.  Whatever can be opened is unpacked. -/
inductive Unpacks (renamer : Renamer) : Archive → List Header → List Unpacked → Prop
  | nil {archive : Archive} : Unpacks renamer archive [] []
  | other {archive : Archive} {h : Header} {headers : List Header} {entries : List Unpacked}
      (kind : h.kind = .other) (rest : Unpacks renamer archive headers entries) :
      Unpacks renamer archive (h :: headers) (.other :: entries)
  | keptClass {archive : Archive} {h : Header} {headers : List Header} {entries : List Unpacked}
      {content : ByteArray} {why : Kept} (kind : h.kind = .classFile)
      (read : archive.content h = .ok content)
      (verdict : renameClass renamer content.data.toList = some (.ok (.kept why)))
      (rest : Unpacks renamer archive headers entries) :
      Unpacks renamer archive (h :: headers) (.classFile false :: entries)
  | renamedClass {archive : Archive} {h : Header} {headers : List Header} {entries : List Unpacked}
      {content : ByteArray} {bytes : List UInt8} (kind : h.kind = .classFile)
      (read : archive.content h = .ok content)
      (verdict : renameClass renamer content.data.toList = some (.ok (.renamed bytes)))
      (rest : Unpacks renamer archive headers entries) :
      Unpacks renamer archive (h :: headers) (.classFile true :: entries)
  | archive {archive a : Archive} {h : Header} {headers : List Header}
      {within entries : List Unpacked} {content : ByteArray} (kind : h.kind = .archive)
      (read : archive.content h = .ok content) (opened : Archive.ofBytes content = .ok a)
      (inner : Unpacks renamer a a.headers within)
      (rest : Unpacks renamer archive headers entries) :
      Unpacks renamer archive (h :: headers) (.archive within :: entries)

variable {α β : Type} {job : Job Option Progress α} {renamer : Renamer} {archive : Archive}
  {h : Header} {headers headers' : List Header} {entries entries' within : List Unpacked}
  {label location : String} {rebuild : String → Archive → Job Option Progress Rebuilt}
  {p p' : Progress}

/-! ### Taking a census -/

/-- The entries at all depths of two rows are those of the one and those of the other. -/
theorem allOf_append : allOf (entries ++ entries') = allOf entries ++ allOf entries' := by
  induction entries with
  | nil => rfl
  | cons entry rest ih => simp only [List.cons_append, allOf, ih, List.append_assoc]

/-- A census can be taken in parts. -/
theorem census_append : census (entries ++ entries') = census entries + census entries' := by
  ext <;> simp [census, allOf_append]

/-- An archive counts, and so does what it holds. -/
theorem census_archive : census [.archive within] =
    ⟨0, 0, 1, if 0 < (census within).classesRenamed then 1 else 0⟩ + census within := by
  have rebuilt : (allOf within).any isRenamedClass = true ↔ 0 < (census within).classesRenamed := by
    rw [census, List.countP_pos_iff, List.any_eq_true]
  have all : allOf [.archive within] = .archive within :: allOf within := by
    simp only [allOf, Unpacked.all, List.append_nil]
  simp only [← rebuilt]
  ext <;> simp [census, all, isClass, isRenamedClass, isArchive, isRebuiltArchive,
    List.countP_cons, Nat.add_comm]

/-- No census counts more renamed things than things. -/
theorem bounded_census (entries : List Unpacked) : (census entries).Bounded := by
  constructor
  · refine List.countP_mono_left fun entry _ renamed => ?_
    cases entry with
    | classFile isRenamed => rfl
    | other | archive _ => cases renamed
  · refine List.countP_mono_left fun entry _ rebuilt => ?_
    cases entry with
    | archive entries => rfl
    | other | classFile _ => cases rebuilt

/-! ### Unpacking -/

/-- Two rows of entries are unpacked one after the other. -/
theorem Unpacks.append (unpacks : Unpacks renamer archive headers entries)
    (unpacks' : Unpacks renamer archive headers' entries') :
    Unpacks renamer archive (headers ++ headers') (entries ++ entries') := by
  induction unpacks with
  | nil => exact unpacks'
  | other kind _ ih => exact .other kind (ih unpacks')
  | keptClass kind read verdict _ ih => exact .keptClass kind read verdict (ih unpacks')
  | renamedClass kind read verdict _ ih => exact .renamedClass kind read verdict (ih unpacks')
  | archive kind read opened inner _ _ ih => exact .archive kind read opened inner (ih unpacks')

/-- **An archive is unpacked in one way only.** -/
theorem Unpacks.unique (unpacks : Unpacks renamer archive headers entries)
    (unpacks' : Unpacks renamer archive headers entries') : entries = entries' := by
  induction unpacks generalizing entries' with
  | nil =>
    cases unpacks'
    rfl
  | other kind _ ih =>
    cases unpacks' with
    | other _ rest => rw [ih rest]
    | keptClass kind' | renamedClass kind' | archive kind' => cases kind.symm.trans kind'
  | keptClass kind read verdict _ ih =>
    cases unpacks' with
    | keptClass _ _ _ rest => rw [ih rest]
    | renamedClass _ read' verdict' =>
      cases read.symm.trans read'
      cases verdict.symm.trans verdict'
    | other kind' | archive kind' => cases kind.symm.trans kind'
  | renamedClass kind read verdict _ ih =>
    cases unpacks' with
    | renamedClass _ _ _ rest => rw [ih rest]
    | keptClass _ read' verdict' =>
      cases read.symm.trans read'
      cases verdict.symm.trans verdict'
    | other kind' | archive kind' => cases kind.symm.trans kind'
  | archive kind read opened _ _ innerIh ih =>
    cases unpacks' with
    | archive _ read' opened' inner rest =>
      cases read.symm.trans read'
      cases opened.symm.trans opened'
      rw [innerIh inner, ih rest]
    | other kind' | keptClass kind' | renamedClass kind' => cases kind.symm.trans kind'

/-! ### Jobs that count -/

/-- A job adds a census of what it finds to the counters, if it does its work.  If it fails, then it
adds to them too, in keeping with the bounds. -/
def TakesCensus (job : Job Option Progress α) (finds : List Unpacked → Prop) : Prop :=
  ∀ p, (∀ a p', Does job p a p' →
      ∃ entries, finds entries ∧ p'.tally = p.tally + census entries) ∧
    ∀ f p', Fails job p f p' → ∃ t : Tally, t.Bounded ∧ p'.tally = p.tally + t

/-- A job that leaves the counters alone finds what does not count. -/
theorem takesCensus_of_tally_eq (uncounted : census entries = .zero)
    (does : ∀ p a p', Does job p a p' → p'.tally = p.tally)
    (fails : ∀ p f p', Fails job p f p' → p'.tally = p.tally) : TakesCensus job (· = entries) := by
  refine fun p => ⟨fun a p' done => ⟨entries, rfl, ?_⟩, fun f p' failed =>
    ⟨.zero, Tally.bounded_zero, fails p f p' failed⟩⟩
  rw [does p a p' done, uncounted, Tally.add_zero]

/-- A job that does nothing takes a census of what counts for nothing. -/
theorem takesCensus_pure {a : α} (uncounted : census entries = .zero) :
    TakesCensus (pure a) (· = entries) := by
  refine takesCensus_of_tally_eq uncounted (fun p a p' does => ?_) (fun p f p' fails => ?_)
  · rw [(does_pure.mp does).2]
  · exact absurd fails fails_pure

theorem takesCensus_tell {e : Event} : TakesCensus (tell e) (· = []) := by
  refine takesCensus_of_tally_eq rfl (fun p a p' does => ?_) (fun p f p' fails => ?_)
  · rw [← does_modify.mp does]
    rfl
  · exact absurd fails fails_modify

theorem takesCensus_demand {ε : Type} {cause : ε → Cause} {x : Except ε α} :
    TakesCensus (demand cause x) (· = []) := by
  refine takesCensus_of_tally_eq rfl (fun p a p' does => ?_) (fun p f p' fails => ?_)
  · rw [(does_demand.mp does).2]
  · obtain ⟨_, -, -, same⟩ := fails_demand.mp fails
    rw [same]

/-- What a job finds may be described more loosely. -/
theorem TakesCensus.mono {finds finds' : List Unpacked → Prop} (takes : TakesCensus job finds)
    (also : ∀ entries, finds entries → finds' entries) : TakesCensus job finds' :=
  fun p => ⟨fun a p' does => by
    obtain ⟨entries, found, grown⟩ := (takes p).1 a p' does
    exact ⟨entries, also entries found, grown⟩, (takes p).2⟩

/-- Of two jobs, the second one finds more. -/
theorem TakesCensus.bind {next : α → Job Option Progress β} {finds finds' : List Unpacked → Prop}
    (takes : TakesCensus job finds) (rest : ∀ a, TakesCensus (next a) finds') :
    TakesCensus (job >>= next) fun entries =>
      ∃ before after, finds before ∧ finds' after ∧ entries = before ++ after := by
  intro p
  constructor
  · intro b p' does
    obtain ⟨a, t, first, second⟩ := does_bind.mp does
    obtain ⟨before, found, grown⟩ := (takes p).1 a t first
    obtain ⟨after, found', grown'⟩ := (rest a t).1 b p' second
    refine ⟨before ++ after, ⟨before, after, found, found', rfl⟩, ?_⟩
    rw [grown', grown, Tally.add_assoc, census_append]
  · intro f p' fails
    rcases fails_bind.mp fails with first | ⟨a, t, first, second⟩
    · exact (takes p).2 f p' first
    · obtain ⟨before, -, grown⟩ := (takes p).1 a t first
      obtain ⟨added, bounded, grown'⟩ := (rest a t).2 f p' second
      refine ⟨census before + added, (bounded_census before).add bounded, ?_⟩
      rw [grown', grown, Tally.add_assoc]

/-- A job finds what is found before another one that finds nothing. -/
theorem TakesCensus.bind_nothing {next : α → Job Option Progress β} {finds : List Unpacked → Prop}
    (takes : TakesCensus job finds) (rest : ∀ a, TakesCensus (next a) (· = [])) :
    TakesCensus (job >>= next) finds := by
  refine (takes.bind rest).mono fun entries found => ?_
  obtain ⟨before, _, found, rfl, rfl⟩ := found
  rwa [List.append_nil]

/-- A job finds what is found after another one that finds nothing. -/
theorem TakesCensus.nothing_bind {next : α → Job Option Progress β} {finds : List Unpacked → Prop}
    (takes : TakesCensus job (· = [])) (rest : ∀ a, TakesCensus (next a) finds) :
    TakesCensus (job >>= next) finds := by
  refine (takes.bind rest).mono fun entries found => ?_
  obtain ⟨_, after, rfl, found, rfl⟩ := found
  exact found

/-! ### Entries -/

/-- A class is counted before anything about it can fail. -/
theorem takesCensus_renameClassEntry (kind : h.kind = .classFile) :
    TakesCensus (renameClassEntry renamer archive h location) (Unpacks renamer archive [h]) := by
  unfold renameClassEntry
  intro p
  constructor
  · intro replacement p' does
    simp only [count, does_bind, does_modify, does_readContent, does_during, does_await] at does
    obtain ⟨_, _, rfl, content, _, ⟨read, rfl⟩, verdict, _, ⟨judged, rfl⟩, last⟩ := does
    cases verdict with
    | renamed bytes =>
      simp only [tell, does_bind, does_modify, does_pure] at last
      obtain ⟨_, _, rfl, _, _, rfl, -, rfl⟩ := last
      exact ⟨[.classFile true], .renamedClass kind read judged .nil, rfl⟩
    | kept why =>
      refine ⟨[.classFile false], .keptClass kind read judged .nil, ?_⟩
      dsimp only at last
      split at last
      · simp only [tell, does_bind, does_modify, does_pure] at last
        obtain ⟨_, _, rfl, -, rfl⟩ := last
        rfl
      · obtain ⟨-, rfl⟩ := does_pure.mp last
        rfl
  · intro f p' fails
    have seen : p'.tally = p.tally.seeClass := by
      simp only [count, fails_bind, does_modify, fails_modify, false_or, does_readContent,
        fails_during, fails_await, does_during, does_await] at fails
      obtain ⟨_, _, rfl, unread | ⟨_, _, ⟨-, rfl⟩, unjudged | ⟨verdict, _, ⟨-, rfl⟩, last⟩⟩⟩ :=
        fails
      · obtain ⟨_, -, -, rfl⟩ := fails_readContent.mp unread
        rfl
      · obtain ⟨_, ⟨_, -, -, rfl⟩, -⟩ := unjudged
        rfl
      · cases verdict with
        | renamed bytes => simp [tell] at last
        | kept why =>
          dsimp only at last
          split at last <;> simp [tell] at last
    exact ⟨⟨1, 0, 0, 0⟩, ⟨by decide, by decide⟩, seen⟩

/-- An archive is counted before what it holds, and once more if that changes. -/
theorem takesCensus_renameArchiveEntry (kind : h.kind = .archive)
    (takes : ∀ label a, TakesCensus (rebuild label a) (Unpacks renamer a a.headers))
    (counts : ∀ label a, Counts false (rebuild label a) Rebuilt.changed) :
    TakesCensus (renameArchiveEntry rebuild archive h location)
      (Unpacks renamer archive [h]) := by
  unfold renameArchiveEntry
  intro p
  constructor
  · intro replacement p' does
    simp only [count, does_bind, does_modify, does_readContent, does_during, does_demand] at does
    obtain ⟨_, _, rfl, content, _, ⟨read, rfl⟩, a, _, ⟨opened, rfl⟩, r, t, rebuilt, last⟩ := does
    obtain ⟨within, unpacks, grown⟩ := (takes location a _).1 r t rebuilt
    obtain ⟨-, changed⟩ := counts location a _ r t rebuilt
    refine ⟨[.archive within], .archive kind read opened unpacks .nil, ?_⟩
    have ends : p'.tally = if r.changed then t.tally.rebuildArchive else t.tally := by
      split at last
      case isTrue isNew =>
        simp only [tell, does_bind, does_modify, does_pure] at last
        obtain ⟨_, _, rfl, _, _, rfl, -, rfl⟩ := last
        rw [if_pos isNew]
        rfl
      case isFalse same =>
        obtain ⟨-, rfl⟩ := does_pure.mp last
        rw [if_neg same]
    have grown : t.tally = p.tally + ⟨0, 0, 1, 0⟩ + census within := grown
    -- Whether the archive changed is not in the tree, but the growth of a counter is.
    have grew : r.changed = true ↔ 0 < (census within).classesRenamed := by
      rw [← changed, grown]
      simp [Progress.count, Tally.seeArchive_eq]
    rw [ends, census_archive, grown, Tally.rebuildArchive_eq]
    simp only [← grew]
    split <;> ext <;> simp <;> omega
  · intro f p' fails
    simp only [count, fails_bind, does_modify, fails_modify, false_or, does_readContent,
      fails_during, fails_demand, does_during, does_demand] at fails
    have seen : (⟨0, 0, 1, 0⟩ : Tally).Bounded := ⟨by decide, by decide⟩
    obtain ⟨_, _, rfl, unread | ⟨_, _, ⟨-, rfl⟩, unopened | ⟨a, _, ⟨-, rfl⟩, inner | later⟩⟩⟩ :=
      fails
    · obtain ⟨_, -, -, rfl⟩ := fails_readContent.mp unread
      exact ⟨_, seen, rfl⟩
    · obtain ⟨_, ⟨_, -, -, rfl⟩, -⟩ := unopened
      exact ⟨_, seen, rfl⟩
    · obtain ⟨t, bounded, grown⟩ := (takes location a _).2 f p' inner
      refine ⟨⟨0, 0, 1, 0⟩ + t, seen.add bounded, ?_⟩
      rw [grown, ← Tally.add_assoc]
      rfl
    · obtain ⟨r, t, -, last⟩ := later
      split at last <;> simp [tell] at last

/-- **What an entry is, is counted.** -/
theorem takesCensus_renameEntry
    (takes : ∀ label a, TakesCensus (rebuild label a) (Unpacks renamer a a.headers))
    (counts : ∀ label a, Counts false (rebuild label a) Rebuilt.changed) :
    TakesCensus (renameEntry renamer rebuild label archive h) (Unpacks renamer archive [h]) := by
  unfold renameEntry
  cases kind : h.kind
  case' classFile =>
    refine takesCensus_demand.nothing_bind fun raw =>
      (takesCensus_renameClassEntry kind).bind_nothing fun replacement => ?_
  case' archive =>
    refine takesCensus_demand.nothing_bind fun raw =>
      (takesCensus_renameArchiveEntry kind takes counts).bind_nothing fun replacement => ?_
  case' other =>
    have uncounted :
        TakesCensus (pure none : Job Option Progress (Option ByteArray)) (· = [.other]) :=
      takesCensus_pure rfl
    have found : TakesCensus (pure none : Job Option Progress (Option ByteArray))
        (Unpacks renamer archive [h]) := uncounted.mono fun entries same => same ▸ .other kind .nil
    refine takesCensus_demand.nothing_bind fun raw => found.bind_nothing fun replacement => ?_
  -- Whether the entry is copied or written anew does not count.
  all_goals
    cases replacement with
    | some content => exact takesCensus_pure rfl
    | none => exact takesCensus_tell.bind_nothing fun _ => takesCensus_pure rfl

/-! ### Whole archives -/

variable {rename : Header → Job Option Progress (Bool × Packed)} {done : Rebuilt}

/-- A row of entries is counted one by one, up to the first that fails. -/
theorem takesCensus_renameEach
    (takes : ∀ h, TakesCensus (rename h) (Unpacks renamer archive [h])) :
    TakesCensus (renameEach rename done headers >>= complete)
      (Unpacks renamer archive headers) := by
  induction headers generalizing done with
  | nil =>
    exact (takesCensus_pure rfl).mono fun entries none => none ▸ .nil
  | cons h rest ih =>
    rw [renameEach_cons_complete]
    refine ((takes h).bind fun w => ih).mono fun entries found => ?_
    obtain ⟨before, after, first, later, rfl⟩ := found
    exact first.append later

/-- **Rebuilding an archive counts what it holds**, at any depth. -/
theorem takesCensus_renameNested (depth : Nat) (label : String) (archive : Archive) :
    TakesCensus (renameNested renamer depth label archive >>= complete)
      (Unpacks renamer archive archive.headers) := by
  induction depth generalizing label archive with
  | zero =>
    -- Too deep: nothing is looked at any more.
    refine fun p => ⟨fun r p' does => absurd does does_throw, fun f p' fails =>
      ⟨.zero, Tally.bounded_zero, ?_⟩⟩
    rw [← (fails_throw.mp fails).2, Tally.add_zero]
  | succ depth ih =>
    exact takesCensus_renameEach fun h => takesCensus_renameEntry ih (counts_renameNested depth)

/-- **What becomes of the counters.**  If an archive is rebuilt, then it can be unpacked, the
counters grow by a census of it, and it counts as changed just if that of the renamed classes grew.
If the archive is not rebuilt, then no counter has decreased, and those of what was changed grew by
no more than those of what was seen. -/
theorem renameArchive_takes_census (renamer : Renamer) (label : String) (archive : Archive)
    (p p' : Progress) :
    (∀ r, Does (archive.renameArchive renamer label) p r p' →
      (∃ entries, Unpacks renamer archive archive.headers entries) ∧
      (∀ entries, Unpacks renamer archive archive.headers entries →
        p'.tally = p.tally + census entries) ∧
      (r.changed = true ↔ p.tally.classesRenamed < p'.tally.classesRenamed)) ∧
    ∀ f, Fails (archive.renameArchive renamer label) p f p' →
      ∃ t : Tally, t.Bounded ∧ p'.tally = p.tally + t := by
  have takes : TakesCensus (archive.renameArchive renamer label)
    (Unpacks renamer archive archive.headers) := takesCensus_renameNested nestingLimit label archive
  obtain ⟨done, stopped⟩ := takes p
  refine ⟨fun r does => ?_, fun f fails => stopped f p' fails⟩
  obtain ⟨entries, unpacks, grown⟩ := done r p' does
  obtain ⟨-, changed⟩ := counts_renameArchive p r p' does
  refine ⟨⟨entries, unpacks⟩, fun entries' unpacks' => ?_, ?_⟩
  · rw [← unpacks.unique unpacks', grown]
  · rw [← changed]
    simp

/-- What the outer archive of the two holds. -/
theorem Boxed.unpacks_outer : Unpacks OneDetail.renamer outer outer.headers
    [.other, .archive [.classFile true]] := by
  have inner : Unpacks OneDetail.renamer boxed boxed.headers [.classFile true] :=
    .renamedClass (by decide) (content_renewed fits_oldClass lies_oldClass)
      OneDetail.renameClass_before .nil
  exact .other (by decide) (.archive (by decide) (content_renewed fits_box lies_box)
    (ofBytes_encode plain_boxed) inner .nil)

/-- The counters after an archive that was rebuilt, and after one that was not. -/
theorem census_of_boxed_and_spoiled :
    (∃ p', Does (Boxed.outer.renameArchive OneDetail.renamer "a.jar") ⟨⟨5, 2, 3, 1⟩, []⟩
      Boxed.rebuiltOuter p' ∧ p'.tally = ⟨6, 3, 4, 2⟩) ∧
    ∃ p', Fails (SpoiledArchive.archive.renameArchive OneDetail.renamer "b.jar")
      ⟨⟨5, 2, 3, 1⟩, []⟩ (SpoiledArchive.failure "b.jar") p' ∧
      ∃ t : Tally, t.Bounded ∧ p'.tally = ⟨5, 2, 3, 1⟩ + t := by
  constructor
  · have rebuilds := Boxed.rebuilds_outer 0xFFFFFFFE
    obtain ⟨p', does⟩ := (yields_renameArchive Boxed.rebuiltOuter _).mpr rebuilds
    obtain ⟨-, counted, -⟩ := (renameArchive_takes_census _ _ _ _ p').1 _ does
    exact ⟨p', does, counted _ Boxed.unpacks_outer⟩
  · have refuses := SpoiledArchive.refuses 0xFFFFFFFF "b.jar"
    obtain ⟨p', fails⟩ := (stops_renameArchive _ _).mpr refuses
    exact ⟨p', fails, (renameArchive_takes_census _ _ _ _ p').2 _ fails⟩

end Archive

end ClassNaming
