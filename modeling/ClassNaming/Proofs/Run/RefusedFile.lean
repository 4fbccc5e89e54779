import ClassNaming.Proofs.Archive.Refused
import ClassNaming.Proofs.Files.SystemFailure
import ClassNaming.Proofs.Run.SweptFile

/-!
# Files that cannot be swept

A file is not swept if the operating system does not let it be read or written, or if its content is
refused: it is no class or no archive, or a class in the archive cannot be renamed, at any depth.

Then everything is as it was.  A staging file may have been made, and may even have been filled with
the entries before the one that was refused; it is gone again.  What remains to be done once an
archive is staged fails for reasons of the operating system only, and not at all if the path names
the file.

## Main Definitions

* `RefusesFile` - why the content of a file is refused, by the kind of the file
* `StagingAt` - where the archive at a path is to be staged

## Main Results

* `sweepFile_fails` - a file that cannot be swept stays as it was
* `sweepFile_refused` - what else than the operating system can stop it is its content
* `exists_sweepFile_refused` - a content that is refused does so
-/

namespace ClassNaming

open FileTree Archive

variable {renamer : Renamer} {w w' : World} {t u : FileTree} {p root staging : Path}
  {folder spot : Spot} {name place : String} {content out : ByteArray} {f : Failure} {isNew : Bool}
  {kind : FileKind}

/-! ### Why a content is refused -/

/-- Why the content of the file at a place is refused, by the kind of the file. -/
inductive RefusesFile (renamer : Renamer) (place : String) : FileKind → ByteArray → Failure → Prop
  | verdict {content : ByteArray} {e : ClassFileError}
      (refused : renameClass renamer content.data.toList = some (.error e)) :
      RefusesFile renamer place .classFile content ⟨[.renameClass place], .classFile e⟩
  | unopened {content : ByteArray} {e : ArchiveError}
      (refused : Archive.ofBytes content = .error e) :
      RefusesFile renamer place .archive content ⟨[.readStructure place], .archive e⟩
  | entry {content : ByteArray} {a : Archive} {f : Failure}
      (opened : Archive.ofBytes content = .ok a)
      (refused : RefusesArchive renamer nestingLimit place a f) :
      RefusesFile renamer place .archive content f

/-- A content is refused for one reason only. -/
theorem RefusesFile.unique {f' : Failure} (refuses : RefusesFile renamer place kind content f)
    (refuses' : RefusesFile renamer place kind content f') : f = f' := by
  cases refuses with
  | verdict refused =>
    cases refuses' with
    | verdict refused' =>
      cases refused.symm.trans refused'
      rfl
  | unopened refused =>
    cases refuses' with
    | unopened refused' =>
      cases refused.symm.trans refused'
      rfl
    | entry opened _ => cases refused.symm.trans opened
  | entry opened refused =>
    cases refuses' with
    | unopened refused' => cases refused'.symm.trans opened
    | entry opened' refused' =>
      cases opened.symm.trans opened'
      exact refused.unique refused'

/-- A content that is refused does not become anything. -/
theorem RefusesFile.not_sweeps (refuses : RefusesFile renamer place kind content f) :
    ¬ Sweeps renamer kind content isNew out := by
  intro sweeps
  cases refuses with
  | verdict refused =>
    cases sweeps with
    | keptClass verdict => cases refused.symm.trans verdict
    | renamedClass verdict => cases refused.symm.trans verdict
  | unopened refused =>
    cases sweeps with
    | keptArchive opened => cases refused.symm.trans opened
    | rebuiltArchive opened => cases refused.symm.trans opened
  | entry opened refused =>
    cases sweeps with
    | keptArchive opened' rebuilt =>
      cases opened.symm.trans opened'
      exact refused.not_rebuildsTo rebuilt
    | rebuiltArchive opened' rebuilt =>
      cases opened.symm.trans opened'
      exact refused.not_rebuildsTo rebuilt

/-! ### Steps that fail -/

/-- Counting cannot fail. -/
@[simp] theorem fails_countNow {step : Tally → Tally} :
    ¬ Fails (onProgress (count step)) w f w' := by
  simp [onProgress, count]

/-- Neither can telling. -/
@[simp] theorem fails_tellNow {e : Event} : ¬ Fails (onProgress (tell e)) w f w' := by
  simp [onProgress, tell]

section Steps

variable {α ε : Type} {action : Action} {job : FileJob α} {a : α} {x : Except ε α}
  {cause : ε → Cause}

/-- A job on files does what it does, whatever it is done for. -/
theorem does_filingNow : Does (onFiles (filing action job)) w a w' ↔
    ∃ t, Does job w.files a t ∧ { w with files := t } = w' := by
  simp only [does_onFiles, does_filing]

/-- An operation on files that fails leaves the world alone if it leaves the files alone. -/
theorem fails_filingNow
    (leaves : ∀ {t e u}, Fails job t e u → t = u ∧ e.isOfSystem = true)
    (fails : Fails (onFiles (filing action job)) w f w') :
    w = w' ∧ f.isOfSystem = true ∧ ∃ e, Fails job w.files e w.files := by
  obtain ⟨t, inner, rfl⟩ := fails_onFiles.mp fails
  obtain ⟨e, inner', rfl⟩ := fails_filing.mp inner
  obtain ⟨rfl, system⟩ := leaves inner'
  exact ⟨rfl, system, e, inner'⟩

/-- Reading a file leaves the world alone. -/
theorem does_readNow (does : Does (onFiles (filing action (readFile p))) w content w') :
    w = w' ∧ Does (readFile p) w.files content w.files := by
  obtain ⟨t, read, rfl⟩ := does_filingNow.mp does
  obtain ⟨-, rfl⟩ := does_readFile.mp read
  exact ⟨rfl, read⟩

/-- A demand that is not met fails with its cause, in the course of the action, and changes nothing.
-/
theorem fails_demandNow : Fails ((demand cause x : Job Option World α).during action) w f w' ↔
    (∃ e, x = .error e ∧ f = ⟨[action], cause e⟩) ∧ w = w' := by
  simp only [fails_during, fails_demand]
  constructor
  · rintro ⟨_, ⟨e, refused, rfl, rfl⟩, rfl⟩
    exact ⟨⟨e, refused, rfl⟩, rfl⟩
  · rintro ⟨⟨e, refused, rfl⟩, rfl⟩
    exact ⟨_, ⟨e, refused, rfl, rfl⟩, rfl⟩

/-- So does what is awaited and comes to an error. -/
theorem fails_awaitNow {x : Option (Except ε α)} :
    Fails ((await cause x : Job Option World α).during action) w f w' ↔
      (∃ e, x = some (.error e) ∧ f = ⟨[action], cause e⟩) ∧ w = w' := by
  cases x with
  | none => simp
  | some result =>
    simp only [Option.some.injEq, ← fails_demandNow]
    rfl

end Steps

/-! ### Classes -/

/-- A sweep of a class fails in reading or writing the file, or it refuses the class. It leaves the
files alone. -/
theorem sweepClass_fails (fails : Fails (sweepClass renamer p) w f w') : w.files = w'.files ∧
    (f.isOfSystem = true ∨ ∃ content, Does (readFile p) w.files content w.files ∧
      RefusesFile renamer p.text .classFile content f) := by
  simp only [sweepClass, fails_bind, fails_countNow, does_countNow, false_or, does_during,
    does_await] at fails
  obtain ⟨_, v, rfl, unread | ⟨content, _, reads, refused | ⟨verdict, _, ⟨-, rfl⟩, fails⟩⟩⟩ := fails
  · obtain ⟨rfl, system, -⟩ := fails_filingNow fails_readFile unread
    exact ⟨rfl, .inl system⟩
  · obtain ⟨rfl, read⟩ := does_readNow reads
    obtain ⟨⟨e, verdict, rfl⟩, rfl⟩ := fails_awaitNow.mp refused
    exact ⟨rfl, .inr ⟨content, read, .verdict verdict⟩⟩
  · obtain ⟨rfl, -⟩ := does_readNow reads
    cases verdict with
    | renamed bytes =>
      simp only [fails_bind, fails_countNow, fails_tellNow, and_false, exists_false, or_false]
        at fails
      obtain ⟨rfl, system, -⟩ := fails_filingNow fails_writeFile fails
      exact ⟨rfl, .inl system⟩
    | kept why =>
      dsimp only at fails
      split at fails
      · exact absurd fails fails_tellNow
      · exact absurd fails fails_pure

/-! ### Staging an archive -/

/-- If staging an archive fails, then nothing was written, or a staging file was; and the content
was refused, or the operating system failed. -/
theorem fails_stageArchive (fails : Fails (stageArchive renamer p staging) w f w') :
    (w.files = w'.files ∨ ∃ t, Does (writeFile staging .empty) w.files () t ∧
      (t = w'.files ∨ ∃ content, Does (writeFile staging content) t () w'.files)) ∧
    (f.isOfSystem = true ∨ ∃ content, Does (readFile p) w.files content w.files ∧
      RefusesFile renamer p.text .archive content f) := by
  simp only [stageArchive, fails_bind, does_during, does_demand] at fails
  rcases fails with unread | ⟨content, _, reads, unopened | ⟨a, _, ⟨opened, rfl⟩, unmade |
    ⟨_, _, made, stuck | ⟨⟨r, failure⟩, _, rebuilds, unfilled | ⟨_, _, filled, ends⟩⟩⟩⟩⟩
  · obtain ⟨rfl, system, -⟩ := fails_filingNow fails_readFile unread
    exact ⟨.inl rfl, .inl system⟩
  all_goals obtain ⟨rfl, read⟩ := does_readNow reads
  · obtain ⟨⟨e, refused, rfl⟩, rfl⟩ := fails_demandNow.mp unopened
    exact ⟨.inl rfl, .inr ⟨content, read, .unopened refused⟩⟩
  · obtain ⟨rfl, system, -⟩ := fails_filingNow fails_writeFile unmade
    exact ⟨.inl rfl, .inl system⟩
  all_goals
    obtain ⟨t, made', rfl⟩ := does_filingNow.mp made
  · obtain ⟨progress, stops, rfl⟩ := fails_within.mp stuck
    have refused := (stops_renameArchive f _).mp ⟨progress, stops.bind⟩
    exact ⟨.inr ⟨t, made', .inl rfl⟩, .inr ⟨content, read, .entry opened refused⟩⟩
  all_goals obtain ⟨progress, rebuilds', rfl⟩ := does_onProgress.mp rebuilds
  · obtain ⟨rfl, system, -⟩ := fails_filingNow fails_writeFile unfilled
    exact ⟨.inr ⟨t, made', .inl rfl⟩, .inl system⟩
  · obtain ⟨u, filled', rfl⟩ := does_filingNow.mp filled
    cases failure with
    | none => exact absurd ends fails_pure
    | some failure =>
      obtain ⟨rfl, rfl⟩ := fails_throw.mp ends
      have stops := rebuilds'.bind_fails (fails_throw.mpr ⟨rfl, rfl⟩ : Fails (complete _) _ _ _)
      have refused := (stops_renameArchive failure _).mp ⟨progress, stops⟩
      exact ⟨.inr ⟨t, made', .inr ⟨_, filled'⟩⟩, .inr ⟨content, read, .entry opened refused⟩⟩

/-- Discarding does not fail. -/
theorem does_discard : ∃ t, Does (discard p) w () { w with files := t } ∧
    (Does (removeFile p) w.files () t ∨ (∃ e, Fails (removeFile p) w.files e t)) := by
  rcases done_or_failed (removeFile p) w.files with ⟨_, t, removes⟩ | ⟨e, t, fails⟩
  · exact ⟨t, Does.onFiles (does_tryCatch.mpr (.inl (does_attempt.mpr removes))), .inl removes⟩
  · refine ⟨t, Does.onFiles (does_tryCatch.mpr (.inr ?_)), .inr ⟨e, fails⟩⟩
    exact ⟨_, t, fails_attempt.mpr ⟨e, fails, rfl⟩, does_pure.mpr ⟨rfl, rfl⟩⟩

/-- An archive is to be staged at a spot, where nothing lies. -/
structure StagingAt (t : FileTree) (p : Path) (spot : Spot) : Prop where
  names : Names t.item? (stagingFile p) spot
  plain : (stagingFile p).closing = []
  vacant : t.item? spot = none

/-- A file is staged beside itself, under its name with the suffix. -/
theorem stagingAt_of_parts {parts : List PathPart} (split : p.parts = parts ++ [.name name])
    (leads : Leads t.item? parts folder) (plain : p.closing = [])
    (vacant : t.item? (folder ++ [name ++ stagingSuffix]) = none) :
    StagingAt t p (folder ++ [name ++ stagingSuffix]) := by
  have named := Path.isName_of_parts split
  exact ⟨⟨parts, _, folder, parts_stagingFile split plain named, leads, rfl⟩,
    closing_stagingFile split plain named, vacant⟩

/-- So it is for an archive at which nothing is in the way. -/
theorem FileAt.stagingAt (at_ : FileAt t p folder name) (kind : Path.kind ⟨name⟩ = .archive) :
    StagingAt t p (folder ++ [name ++ stagingSuffix]) := by
  obtain ⟨parts, split, leads⟩ := at_.split
  exact stagingAt_of_parts split leads at_.plain (at_.free kind)

namespace StagingAt

variable {made filled left : FileTree}

/-- A staging file that was made lies where nothing lay, whether it was filled or not. -/
theorem staged (at_ : StagingAt t p spot)
    (makes : Does (writeFile (stagingFile p) .empty) t () made)
    (fills : made = filled ∨ ∃ content, Does (writeFile (stagingFile p) content) made () filled) :
    (stagingFile p).Short ∧ ∃ content, t.Put spot (.file content) filled := by
  obtain ⟨s, resolved, -, -⟩ := does_writeFile.mp makes
  have put := writeFile_puts at_.names (by simp [at_.vacant]) makes
  have names := at_.names.mono (put.sub at_.vacant)
  refine ⟨at_.names.short resolved, ?_⟩
  rcases fills with rfl | ⟨content, fills⟩
  · exact ⟨_, put⟩
  · exact ⟨content, put.again (writeFile_puts names (by simp [put.there]) fills)⟩

/-- Once the staging file is discarded, all is as it was before it was made. -/
theorem discarded (at_ : StagingAt t p spot)
    (makes : Does (writeFile (stagingFile p) .empty) t () made)
    (fills : made = filled ∨ ∃ content, Does (writeFile (stagingFile p) content) made () filled)
    (removes : Does (removeFile (stagingFile p)) filled () left ∨
      ∃ e, Fails (removeFile (stagingFile p)) filled e left) (other : Spot) :
    left.item? other = t.item? other := by
  obtain ⟨short, content, put⟩ := at_.staged makes fills
  have names := at_.names.mono (put.sub at_.vacant)
  rcases removes with removes | ⟨e, fails⟩
  · rw [removeFile_drops names at_.plain removes, put]
    split
    case isTrue same => rw [same, at_.vacant]
    case isFalse => rfl
  · exact absurd fails (removeFile_does names at_.plain short put.there (by simp)).not_fails

/-- An archive that could not be staged leaves no trace. -/
theorem unstaged {v : World} (at_ : StagingAt w.files p spot)
    (fails : Fails (stageArchive renamer p (stagingFile p)) w f v)
    (discards : Does (discard (stagingFile p)) v () w') (other : Spot) :
    w'.files.item? other = w.files.item? other := by
  obtain ⟨t, discards', ends⟩ := does_discard (w := v) (p := stagingFile p)
  obtain ⟨-, rfl⟩ := discards.unique discards'
  rcases (fails_stageArchive fails).1 with same | ⟨made, makes, fills⟩
  · -- Nothing was made, so there is nothing to discard.
    rcases ends with removes | ⟨e, missing⟩
    · obtain ⟨s, item, found, -, -⟩ := does_removeFile removes
      rw [← same] at found
      obtain ⟨resolved, there⟩ := find_eq_ok.mp found
      obtain rfl := at_.names.eq_of_entry at_.plain resolved
      cases there.symm.trans at_.vacant
    · rw [same, (fails_removeFile missing).1]
  · exact at_.discarded makes fills ends other

end StagingAt

/-! ### Archives -/

/-- If an archive is not swept, then it could not be staged, and the staging file was discarded; or
the operating system failed afterwards. -/
theorem sweepArchive_fails (fails : Fails (sweepArchive renamer p) w f w') :
    ∃ v, v.files = w.files ∧
      ((∃ u, Fails (stageArchive renamer p (stagingFile p)) v f u ∧
          Does (discard (stagingFile p)) u () w') ∨
        ∃ changed u, Does (stageArchive renamer p (stagingFile p)) v changed u ∧
          f.isOfSystem = true ∧ ((∃ e, Fails (moveFile (stagingFile p) p) u.files e u.files) ∨
            ∃ e, Fails (removeFile (stagingFile p)) u.files e u.files)) := by
  simp only [sweepArchive, fails_bind, fails_countNow, does_countNow, false_or, fails_tryCatch,
    does_tryCatch, does_bind, does_throw, and_false, exists_false, or_false] at fails
  obtain ⟨_, v, rfl, ⟨f', u, unstaged, discards⟩ | ⟨changed, u, stages, fails⟩⟩ := fails
  all_goals refine ⟨{ w with progress := w.progress.count .seeArchive }, rfl, ?_⟩
  · rcases discards with stuck | ⟨_, x, discards, throws⟩
    · obtain ⟨t, discards, -⟩ := does_discard (w := u) (p := stagingFile p)
      exact absurd stuck discards.not_fails
    · obtain ⟨rfl, rfl⟩ := fails_throw.mp throws
      exact .inl ⟨u, unstaged, discards⟩
  · refine .inr ⟨changed, u, stages, ?_⟩
    cases changed with
    | true =>
      simp only [if_pos, fails_bind, fails_countNow, fails_tellNow, and_false, exists_false,
        or_false] at fails
      obtain ⟨-, system, moves⟩ := fails_filingNow fails_moveFile fails
      exact ⟨system, .inl moves⟩
    | false =>
      simp only [Bool.false_eq_true, if_neg, not_false_iff, fails_bind, fails_tellNow, and_false,
        exists_false, or_false] at fails
      obtain ⟨-, system, removes⟩ := fails_filingNow fails_removeFile fails
      exact ⟨system, .inr removes⟩

/-- What is done with a staged archive cannot fail: the staging file is there, and so is the
archive. -/
theorem staged_ends {changed : Bool} (at_ : FileAt w.files p folder name)
    (kind : Path.kind ⟨name⟩ = .archive)
    (stages : Does (stageArchive renamer p (stagingFile p)) w changed w') :
    (∃ u, Does (moveFile (stagingFile p) p) w'.files () u) ∧
      ∃ u, Does (removeFile (stagingFile p)) w'.files () u := by
  obtain ⟨content, a, r, t, read, -, -, -, makes, fills, -, -⟩ := does_stageArchive stages
  have there := readFile_names at_.names at_.no_link read
  obtain ⟨⟨s, found⟩, -⟩ := does_readFile.mp read
  have short := at_.names.short (find_eq_ok.mp found).1
  have staging := at_.stagingAt kind
  obtain ⟨short', content', put⟩ := staging.staged makes (.inr ⟨_, fills⟩)
  have grown := put.sub staging.vacant
  have names := staging.names.mono grown
  exact ⟨⟨_, moveFile_does names staging.plain short' put.there (at_.names.mono grown)
    at_.plain short (grown there)⟩,
    _, removeFile_does names staging.plain short' put.there (by simp)⟩

/-! ### Files -/

/-- **A file that cannot be swept stays as it was**, and so does everything else. -/
theorem sweepFile_fails (at_ : FileAt w.files p folder name)
    (fails : Fails (sweepFile renamer p) w f w') (other : Spot) :
    w'.files.item? other = w.files.item? other := by
  unfold sweepFile at fails
  rw [at_.kind_eq] at fails
  cases kind : Path.kind ⟨name⟩ with
  | classFile =>
    rw [kind] at fails
    rw [(sweepClass_fails fails).1]
  | archive =>
    rw [kind] at fails
    obtain ⟨v, same, ⟨u, unstaged, discards⟩ | ⟨changed, u, stages, -, ends⟩⟩ :=
      sweepArchive_fails fails
    all_goals rw [← same] at at_ ⊢
    · exact (at_.stagingAt kind).unstaged unstaged discards other
    · obtain ⟨⟨_, moves⟩, _, removes⟩ := staged_ends at_ kind stages
      rcases ends with ⟨e, fails⟩ | ⟨e, fails⟩
      · exact absurd fails moves.not_fails
      · exact absurd fails removes.not_fails
  | other =>
    rw [kind] at fails
    exact absurd fails fails_tellNow

/-- **What else than the operating system can stop a file is its content**, and then all is as it
was. -/
theorem sweepFile_refused (staging : p.kind = .archive → ∃ spot, StagingAt w.files p spot)
    (fails : Fails (sweepFile renamer p) w f w') (no_system : f.isOfSystem = false) :
    (∃ content, Does (readFile p) w.files content w.files ∧
      RefusesFile renamer p.text p.kind content f) ∧
    ∀ other, w'.files.item? other = w.files.item? other := by
  have system : f.isOfSystem ≠ true := by simp [no_system]
  unfold sweepFile at fails
  cases kind : p.kind with
  | classFile =>
    rw [kind] at fails
    obtain ⟨same, refused⟩ := sweepClass_fails fails
    exact ⟨refused.resolve_left system, fun other => by rw [same]⟩
  | archive =>
    rw [kind] at fails
    obtain ⟨spot, at_⟩ := staging kind
    obtain ⟨v, same, ⟨u, unstaged, discards⟩ | ⟨-, -, -, system', -⟩⟩ := sweepArchive_fails fails
    · rw [← same] at at_ ⊢
      exact ⟨(fails_stageArchive unstaged).2.resolve_left system,
        at_.unstaged unstaged discards⟩
    · exact absurd system' system
  | other =>
    rw [kind] at fails
    exact absurd fails fails_tellNow

/-! ### Contents that stop -/

/-- A class file that is refused makes its sweep fail with the same failure. -/
theorem exists_sweepClass_refused (at_ : FileAt w.files p folder name) (short : p.Short)
    (there : w.files.item? (folder ++ [name]) = some (.file content))
    (refuses : RefusesFile renamer p.text .classFile content f) :
    ∃ w', Fails (sweepClass renamer p) w f w' := by
  have read := readFile_does at_.names at_.plain short there
  let v : World := { w with progress := w.progress.count .seeClass }
  have seen : Does (onProgress (count .seeClass)) w () v := does_countNow.mpr rfl
  have read' : Does (onFiles (filing (.readClass p.text) (readFile p))) v content v :=
    Does.onFiles (does_filing.mpr read)
  cases refuses with
  | verdict refused =>
    exact ⟨v, seen.bind_fails (read'.bind_fails
      (Fails.bind (fails_awaitNow.mpr ⟨⟨_, refused, rfl⟩, rfl⟩)))⟩

/-- So does an archive, while it is staged. -/
theorem exists_stageArchive_refused (at_ : FileAt w.files p folder name)
    (kind : Path.kind ⟨name⟩ = .archive) (short : p.Short) (short' : (stagingFile p).Short)
    (there : w.files.item? (folder ++ [name]) = some (.file content))
    (refuses : RefusesFile renamer p.text .archive content f) :
    ∃ w', Fails (stageArchive renamer p (stagingFile p)) w f w' := by
  have read := readFile_does at_.names at_.plain short there
  have read' : Does (onFiles (filing (.openJar p.text) (readFile p))) w content w :=
    Does.onFiles (does_filing.mpr read)
  cases refuses with
  | unopened refused =>
    rename_i e
    have stops : Fails ((demand .archive (Archive.ofBytes content) :
        Job Option World Archive).during (.readStructure p.text)) w
        ⟨[.readStructure p.text], .archive e⟩ w :=
      fails_demandNow.mpr ⟨⟨e, refused, rfl⟩, rfl⟩
    exact ⟨w, read'.bind_fails stops.bind⟩
  | entry opened refused =>
    rename_i a
    have opened' : Does ((demand .archive (Archive.ofBytes content) :
        Job Option World Archive).during (.readStructure p.text)) w a w :=
      does_during.mpr (does_demand.mpr ⟨opened, rfl⟩)
    -- The staging file is made, and then the archive is rebuilt as far as possible.
    have staging := at_.stagingAt kind
    have first := writeFile_does staging.names staging.plain short' .empty (.inl staging.vacant)
    have made := writeFile_puts staging.names (by simp [staging.vacant]) first
    let v : World :=
      { w with files := w.files.put (folder ++ [name ++ stagingSuffix]) (.file .empty) }
    have first' : Does (onFiles (filing (.createStaging (stagingFile p).text)
        (writeFile (stagingFile p) .empty))) w () v := Does.onFiles (does_filing.mpr first)
    obtain ⟨progress, stops⟩ := (stops_renameArchive f w.progress).mpr refused
    rcases fails_bind.mp stops with stuck | ⟨⟨r, failure⟩, reached, rebuilds, ends⟩
    · exact ⟨_, read'.bind_fails (opened'.bind_fails (first'.bind_fails
        (Fails.bind (fails_within.mpr ⟨progress, stuck, rfl⟩))))⟩
    · cases failure with
      | none => exact absurd ends fails_pure
      | some failure =>
        obtain ⟨rfl, -⟩ := fails_throw.mp ends
        have goes : Does (onProgress (a.renameAsFarAsPossible renamer p.text)) v
            (r, some failure) { v with progress := reached } :=
          does_onProgress.mpr ⟨reached, rebuilds, rfl⟩
        have names := staging.names.mono (made.sub staging.vacant)
        have second := writeFile_does names staging.plain short' (encode r.entries)
          (.inr ⟨_, made.there⟩)
        exact ⟨_, read'.bind_fails (opened'.bind_fails (first'.bind_fails (goes.bind_fails
          ((Does.onFiles (does_filing.mpr second)).bind_fails (fails_throw.mpr ⟨rfl, rfl⟩)))))⟩

/-- **A content that is refused stops the file**, if its path is short enough. -/
theorem exists_sweepFile_refused (at_ : FileAt w.files p folder name) (short : p.Short)
    (short' : p.kind = .archive → (stagingFile p).Short)
    (there : w.files.item? (folder ++ [name]) = some (.file content))
    (refuses : RefusesFile renamer p.text p.kind content f) :
    ∃ w', Fails (sweepFile renamer p) w f w' := by
  unfold sweepFile
  cases kind : p.kind with
  | classFile =>
    rw [kind] at refuses
    exact exists_sweepClass_refused at_ short there refuses
  | archive =>
    rw [kind] at refuses
    let v : World := { w with progress := w.progress.count .seeArchive }
    have seen : Does (onProgress (count .seeArchive)) w () v := does_countNow.mpr rfl
    have at_ : FileAt v.files p folder name := at_
    obtain ⟨u, stops⟩ := exists_stageArchive_refused at_ (at_.kind_eq.symm.trans kind) short
      (short' kind) there refuses
    obtain ⟨t, discards, -⟩ := does_discard (w := u) (p := stagingFile p)
    exact ⟨_, seen.bind_fails (Fails.bind (fails_tryCatch.mpr
      ⟨f, u, stops, discards.bind_fails (fails_throw.mpr ⟨rfl, rfl⟩)⟩))⟩
  | other =>
    rw [kind] at refuses
    cases refuses

end ClassNaming
