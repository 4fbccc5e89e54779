import ClassNaming.Proofs.Archive.Unchanged
import ClassNaming.Proofs.Files.Contents
import ClassNaming.Proofs.Run.Sibling
import ClassNaming.Proofs.Run.World
import ClassNaming.Run.Sweep

/-!
# What a sweep does with a file

The content that a file is given depends on its old content and on the kind of the file.  Nothing
else changes: a staging file is made where nothing lies, and is gone at the end.

A new content of a class differs from the old one.  That of an archive does, too, unless its bytes
are taken for those of a large archive.

## Main Definitions

* `Sweeps` - what the content of a file becomes, by the kind of the file
* `FileAt` - a file that a path names
* `SweptFile` - two worlds before and after a file was swept

## Main Results

* `Sweeps.unique`, `Sweeps.ne_of_new` - what a content becomes, and when it differs
* `sweepFile_sweeps` - what becomes of a file that is swept
* `exists_sweepFile` - a file whose content allows it is swept
-/

namespace ClassNaming

open FileTree Archive

variable {renamer : Renamer} {w w' : World} {t : FileTree} {p staging : Path} {folder spot : Spot}
  {name : String} {content out : ByteArray} {isNew : Bool} {kind : FileKind}

/-! ### What becomes of a content -/

/-- What the content of a file becomes, by the kind of the file, and whether that is new. -/
inductive Sweeps (renamer : Renamer) : FileKind → ByteArray → Bool → ByteArray → Prop
  | other {content : ByteArray} : Sweeps renamer .other content false content
  | keptClass {content : ByteArray} {why : Kept}
      (verdict : renameClass renamer content.data.toList = some (.ok (.kept why))) :
      Sweeps renamer .classFile content false content
  | renamedClass {content : ByteArray} {bytes : List UInt8}
      (verdict : renameClass renamer content.data.toList = some (.ok (.renamed bytes))) :
      Sweeps renamer .classFile content true (ofOctets bytes)
  | keptArchive {content : ByteArray} {a : Archive} {r : Rebuilt}
      (opened : Archive.ofBytes content = .ok a) (rebuilt : RebuildsTo renamer a r)
      (same : r.changed = false) : Sweeps renamer .archive content false content
  | rebuiltArchive {content : ByteArray} {a : Archive} {r : Rebuilt}
      (opened : Archive.ofBytes content = .ok a) (rebuilt : RebuildsTo renamer a r)
      (changed : r.changed = true) : Sweeps renamer .archive content true (encode r.entries)

/-- What a content becomes depends on nothing else. -/
theorem Sweeps.unique {isNew' : Bool} {out' : ByteArray}
    (sweeps : Sweeps renamer kind content isNew out)
    (sweeps' : Sweeps renamer kind content isNew' out') : isNew = isNew' ∧ out = out' := by
  cases sweeps with
  | other => cases sweeps'; exact ⟨rfl, rfl⟩
  | keptClass verdict =>
    cases sweeps' with
    | keptClass => exact ⟨rfl, rfl⟩
    | renamedClass verdict' => cases verdict.symm.trans verdict'
  | renamedClass verdict =>
    cases sweeps' with
    | keptClass verdict' => cases verdict.symm.trans verdict'
    | renamedClass verdict' =>
      cases verdict.symm.trans verdict'
      exact ⟨rfl, rfl⟩
  | keptArchive opened rebuilt same =>
    cases sweeps' with
    | keptArchive => exact ⟨rfl, rfl⟩
    | rebuiltArchive opened' rebuilt' changed =>
      cases opened.symm.trans opened'
      rw [rebuilt.unique rebuilt', changed] at same
      cases same
  | rebuiltArchive opened rebuilt changed =>
    cases sweeps' with
    | keptArchive opened' rebuilt' same =>
      cases opened.symm.trans opened'
      rw [rebuilt.unique rebuilt', same] at changed
      cases changed
    | rebuiltArchive opened' rebuilt' =>
      cases opened.symm.trans opened'
      rw [rebuilt.unique rebuilt']
      exact ⟨rfl, rfl⟩

theorem Sweeps.eq_of_old (sweeps : Sweeps renamer kind content false out) : out = content := by
  cases sweeps <;> rfl

/-- A new content differs from the old one, unless an archive seems to be large. -/
theorem Sweeps.ne_of_new (sweeps : Sweeps renamer kind content true out)
    (unambiguous : kind = .archive → ∀ a b, Archive.ofBytes content = .ok a → Within a b →
      ¬ SeemsLarge b.bytes) : out ≠ content := by
  rintro rfl
  generalize same : out = before at *
  cases sweeps with
  | renamedClass verdict =>
    subst same
    exact renameClass_ne verdict rfl
  | rebuiltArchive opened rebuilt changed =>
    have unchanged := (rebuildsTo_iff.mp rebuilt).unchanged (same ▸ opened) fun b =>
      unambiguous rfl _ b opened
    rw [changed] at unchanged
    cases unchanged

/-! ### One file -/

/-- The kind of a path is that of the name that it ends with. -/
theorem Path.kind_of_parts {parts : List PathPart} (split : p.parts = parts ++ [.name name]) :
    p.kind = Path.kind ⟨name⟩ := by
  have named := Path.isName_of_parts split
  have alone : (Path.mk name).parts = [.name name] := by
    have joined : (Path.mk "").join name = ⟨name⟩ := by simp [Path.join]
    rw [← joined, Path.parts_join named]
    rfl
  have same : p.fileName? = (Path.mk name).fileName? := by
    rw [Path.fileName?_of_parts split, Path.fileName?, alone]
    rfl
  rw [Path.kind, Path.kind, Path.extension?, Path.extension?, same]

/-- A file that a path names, with nothing where it might be staged. -/
structure FileAt (t : FileTree) (p : Path) (folder : Spot) (name : String) : Prop where
  split : ∃ parts, p.parts = parts ++ [.name name] ∧ Leads t.item? parts folder
  plain : p.closing = []
  file : ∃ content, t.item? (folder ++ [name]) = some (.file content)
  free : Path.kind ⟨name⟩ = .archive → t.item? (folder ++ [name ++ stagingSuffix]) = none

namespace FileAt

theorem names (at_ : FileAt t p folder name) : Names t.item? p (folder ++ [name]) := by
  obtain ⟨parts, split, leads⟩ := at_.split
  exact ⟨parts, name, folder, split, leads, rfl⟩

theorem isName (at_ : FileAt t p folder name) : IsName name := by
  obtain ⟨parts, split, -⟩ := at_.split
  exact Path.isName_of_parts split

/-- The staging file is beside the file. -/
theorem names_staging (at_ : FileAt t p folder name) :
    Names t.item? (stagingFile p) (folder ++ [name ++ stagingSuffix]) := by
  obtain ⟨parts, split, leads⟩ := at_.split
  exact ⟨parts, _, folder, parts_stagingFile split at_.plain at_.isName, leads, rfl⟩

theorem plain_staging (at_ : FileAt t p folder name) : (stagingFile p).closing = [] := by
  obtain ⟨parts, split, -⟩ := at_.split
  exact closing_stagingFile split at_.plain at_.isName

theorem no_link (at_ : FileAt t p folder name) (target : Path) :
    t.item? (folder ++ [name]) ≠ some (.link target) := by
  obtain ⟨content, there⟩ := at_.file
  simp [there]

/-- The kind of the path is that of the name. -/
theorem kind_eq (at_ : FileAt t p folder name) : p.kind = Path.kind ⟨name⟩ := by
  obtain ⟨parts, split, -⟩ := at_.split
  exact Path.kind_of_parts split

end FileAt

/-- A file was swept: it has the content that it was to get, and a new one was counted. -/
structure SweptFile (renamer : Renamer) (kind : FileKind) (spot : Spot) (content : ByteArray)
    (isNew : Bool) (out : ByteArray) (w w' : World) : Prop where
  before : w.files.item? spot = some (.file content)
  sweeps : Sweeps renamer kind content isNew out
  after : w.files.Put spot (.file out) w'.files
  grows : w.progress.tally.classesRenamed ≤ w'.progress.tally.classesRenamed
  counted : w.progress.tally.classesRenamed < w'.progress.tally.classesRenamed ↔ isNew = true

theorem sweepClass_sweeps (at_ : FileAt w.files p folder name)
    (does : Does (sweepClass renamer p) w () w') : ∃ content isNew out,
      SweptFile renamer .classFile (folder ++ [name]) content isNew out w w' := by
  simp only [sweepClass, does_bind, does_countNow, does_onFiles, does_filing, does_during,
    does_await] at does
  obtain ⟨_, _, rfl, content, _, ⟨_, read, rfl⟩, verdict, _, ⟨renamed, rfl⟩, does⟩ := does
  have there := readFile_names at_.names at_.no_link read
  obtain ⟨-, rfl⟩ := does_readFile.mp read
  cases verdict with
  | renamed bytes =>
    simp only [does_bind, does_countNow, does_tellNow, does_onFiles, does_filing] at does
    obtain ⟨_, _, ⟨u, write, rfl⟩, _, _, rfl, rfl⟩ := does
    refine ⟨content, true, _, there, .renamedClass renamed,
      writeFile_puts at_.names at_.no_link write, ?_, ?_⟩
    · simp [Progress.count, Progress.tell, Tally.seeClass, Tally.renameClass]
    · simp [Progress.count, Progress.tell, Tally.seeClass, Tally.renameClass]
  | kept why =>
    obtain ⟨files, tally⟩ : w'.files = w.files ∧
        w'.progress.tally.classesRenamed = w.progress.tally.classesRenamed := by
      dsimp only at does
      split at does
      case h_1 =>
        rw [← does_tellNow.mp does]
        exact ⟨rfl, rfl⟩
      case h_2 =>
        obtain ⟨-, rfl⟩ := does_pure.mp does
        exact ⟨rfl, rfl⟩
    refine ⟨content, false, content, there, .keptClass renamed, ?_, tally.ge, by simp [tally]⟩
    rw [files]
    exact put_self there

/-- Rebuilding an archive in a staging file. -/
theorem does_stageArchive {changed : Bool}
    (does : Does (stageArchive renamer p staging) w changed w') : ∃ content a r t,
      Does (readFile p) w.files content w.files ∧ Archive.ofBytes content = .ok a ∧
      RebuildsTo renamer a r ∧ changed = r.changed ∧
      Does (writeFile staging .empty) w.files () t ∧
      Does (writeFile staging (encode r.entries)) t () w'.files ∧
      w.progress.tally.classesRenamed ≤ w'.progress.tally.classesRenamed ∧
      (w.progress.tally.classesRenamed < w'.progress.tally.classesRenamed ↔
        r.changed = true) := by
  simp only [stageArchive, does_bind, does_onFiles, does_filing, does_during, does_demand,
    does_onProgress] at does
  obtain ⟨content, _, ⟨_, read, rfl⟩, a, _, ⟨opened, rfl⟩, _, _, ⟨t, first, rfl⟩,
    ⟨r, failure⟩, _, ⟨progress, rebuilds, rfl⟩, _, _, ⟨u, second, rfl⟩, ends⟩ := does
  obtain ⟨-, rfl⟩ := does_readFile.mp read
  cases failure with
  | some f => exact absurd ends does_throw
  | none =>
    obtain ⟨rfl, rfl⟩ := does_pure.mp ends
    have completes := does_complete.mpr rebuilds
    obtain ⟨grows, counted⟩ := counts_renameArchive _ _ _ completes
    refine ⟨content, a, r, t, read, opened, ?_, rfl, first, second, grows, ?_⟩
    · exact rebuildsTo_iff.mpr ((yields_renameArchive r _).mp ⟨_, completes⟩)
    · rw [← counted]
      simp

/-- A rebuilt archive lies staged beside the file: the staging file was made and then filled. -/
theorem stageArchive_puts {changed : Bool}
    (does : Does (stageArchive renamer p (stagingFile p)) w changed w')
    (at_ : FileAt w.files p folder name) (kind : Path.kind ⟨name⟩ = .archive) : ∃ content a r,
      w.files.item? (folder ++ [name]) = some (.file content) ∧ Archive.ofBytes content = .ok a ∧
      RebuildsTo renamer a r ∧ changed = r.changed ∧
      w.files.Put (folder ++ [name ++ stagingSuffix]) (.file (encode r.entries)) w'.files ∧
      w.progress.tally.classesRenamed ≤ w'.progress.tally.classesRenamed ∧
      (w.progress.tally.classesRenamed < w'.progress.tally.classesRenamed ↔
        r.changed = true) := by
  obtain ⟨content, a, r, t, read, opened, rebuilt, same, first, second, counts⟩ :=
    does_stageArchive does
  have vacant := at_.free kind
  have made := writeFile_puts at_.names_staging (by simp [vacant]) first
  have filled := writeFile_puts (at_.names_staging.mono (made.sub vacant))
    (by simp [made.there]) second
  exact ⟨content, a, r, readFile_names at_.names at_.no_link read, opened, rebuilt, same,
    made.again filled, counts⟩

theorem sweepArchive_sweeps (at_ : FileAt w.files p folder name)
    (kind : Path.kind ⟨name⟩ = .archive) (does : Does (sweepArchive renamer p) w () w') :
    ∃ content isNew out,
      SweptFile renamer .archive (folder ++ [name]) content isNew out w w' := by
  simp only [sweepArchive, does_bind, does_countNow, does_tryCatch, does_throw, exists_false,
    and_false, or_false] at does
  obtain ⟨_, _, rfl, changed, v, staged, does⟩ := does
  obtain ⟨content, a, r, there, opened, rebuilt, rfl, staging, grows, counted⟩ :=
    stageArchive_puts staged at_ kind
  -- The staging file is gone at the end.
  have vacant := at_.free kind
  have grown := staging.sub vacant
  have names := at_.names_staging.mono grown
  cases new : r.changed with
  | true =>
    rw [new] at does counted
    rw [if_pos rfl] at does
    simp only [does_bind, does_countNow, does_tellNow, does_onFiles, does_filing] at does
    obtain ⟨_, _, ⟨u, moves, rfl⟩, _, _, rfl, rfl⟩ := does
    refine ⟨content, true, _, there, .rebuiltArchive opened rebuilt new, fun other => ?_, grows,
      counted⟩
    show u.item? other = _
    rw [moveFile_puts names at_.plain_staging (at_.names.mono grown) at_.plain
      staging.there moves, staging]
    split
    case isTrue => rfl
    case isFalse =>
      split
      case isTrue same => rw [same, vacant]
      case isFalse => rfl
  | false =>
    rw [new] at does counted
    rw [if_neg (by simp)] at does
    simp only [does_bind, does_tellNow, does_onFiles, does_filing] at does
    obtain ⟨_, _, ⟨u, removes, rfl⟩, rfl⟩ := does
    have same : ∀ other, u.item? other = w.files.item? other := by
      intro other
      rw [removeFile_drops names at_.plain_staging removes, staging]
      split
      case isTrue same => rw [same, vacant]
      case isFalse => rfl
    refine ⟨content, false, content, there, .keptArchive opened rebuilt new, fun other => ?_, grows,
      counted⟩
    show u.item? other = _
    rw [same]
    exact put_self there other

/-- **One file is swept**, and nothing else changes. -/
theorem sweepFile_sweeps (at_ : FileAt w.files p folder name)
    (does : Does (sweepFile renamer p) w () w') : ∃ content isNew out,
      SweptFile renamer (Path.kind ⟨name⟩) (folder ++ [name]) content isNew out w w' := by
  unfold sweepFile at does
  rw [at_.kind_eq] at does
  cases kind : Path.kind ⟨name⟩ with
  | classFile =>
    rw [kind] at does
    exact sweepClass_sweeps at_ does
  | archive =>
    rw [kind] at does
    exact sweepArchive_sweeps at_ kind does
  | other =>
    rw [kind] at does
    rw [← does_tellNow.mp does]
    obtain ⟨content, there⟩ := at_.file
    exact ⟨content, false, content, there, .other, put_self there, Nat.le_refl _,
      by simp [Progress.tell]⟩

/-! ### Files that can be swept -/

theorem exists_sweepClass (at_ : FileAt w.files p folder name) (short : p.Short)
    (there : w.files.item? (folder ++ [name]) = some (.file content))
    (sweeps : Sweeps renamer .classFile content isNew out) :
    ∃ w', Does (sweepClass renamer p) w () w' := by
  have read := readFile_does at_.names at_.plain short there
  let v : World := { w with progress := w.progress.count .seeClass }
  have seen : Does (onProgress (count .seeClass)) w () v := does_countNow.mpr rfl
  have read' : Does (onFiles (filing (.readClass p.text) (readFile p))) v content v :=
    Does.onFiles (does_filing.mpr read)
  have judged : ∀ verdict, renameClass renamer content.data.toList = some (.ok verdict) →
      Does ((await .classFile (renameClass renamer content.data.toList)).during
        (.renameClass p.text)) v verdict v :=
    fun verdict same => does_during.mpr (does_await.mpr ⟨same, rfl⟩)
  cases sweeps with
  | keptClass verdict =>
    rename_i why
    cases remark : why.remark? with
    | none =>
      refine ⟨v, seen.bind (read'.bind ((judged _ verdict).bind ?_))⟩
      simp [remark]
    | some text =>
      refine ⟨{ v with progress := v.progress.tell (.remark text) },
        seen.bind (read'.bind ((judged _ verdict).bind ?_))⟩
      simp [remark]
  | renamedClass verdict =>
    rename_i bytes
    have write := writeFile_does at_.names at_.plain short (ofOctets bytes) (.inr ⟨_, there⟩)
    have wrote : Does (onFiles (filing (.writeClass p.text) (writeFile p (ofOctets bytes))))
        v () _ := Does.onFiles (does_filing.mpr write)
    exact ⟨_, seen.bind (read'.bind ((judged _ verdict).bind
      (wrote.bind (Does.countNow.bind Does.tellNow))))⟩

/-- An archive is staged if it can be rebuilt. -/
theorem exists_stageArchive {a : Archive} {r : Rebuilt} (at_ : FileAt w.files p folder name)
    (kind : Path.kind ⟨name⟩ = .archive) (short : p.Short) (short' : (stagingFile p).Short)
    (there : w.files.item? (folder ++ [name]) = some (.file content))
    (opened : Archive.ofBytes content = .ok a) (rebuilt : RebuildsTo renamer a r) :
    ∃ v, Does (stageArchive renamer p (stagingFile p)) w r.changed v ∧
      w.files.Put (folder ++ [name ++ stagingSuffix]) (.file (encode r.entries)) v.files := by
  have read := readFile_does at_.names at_.plain short there
  have vacant := at_.free kind
  have first := writeFile_does at_.names_staging at_.plain_staging short' .empty (.inl vacant)
  have made := writeFile_puts at_.names_staging (by simp [vacant]) first
  have names := at_.names_staging.mono (made.sub vacant)
  have second := writeFile_does names at_.plain_staging short' (encode r.entries)
    (.inr ⟨_, made.there⟩)
  have filled := made.again (writeFile_puts names (by simp [made.there]) second)
  obtain ⟨progress, rebuilds⟩ := rebuilt p.text w.progress
  let v : World :=
    { w with files := w.files.put (folder ++ [name ++ stagingSuffix]) (.file .empty) }
  have goes : Does (onProgress (a.renameAsFarAsPossible renamer p.text)) v (r, none)
      { v with progress } := does_onProgress.mpr ⟨progress, does_complete.mp rebuilds, rfl⟩
  refine ⟨{ w with progress, files := (w.files.put _ _).put _ _ }, ?_, filled⟩
  exact (Does.onFiles (does_filing.mpr read)).bind
    ((does_during.mpr (does_demand.mpr ⟨opened, rfl⟩)).bind
      ((Does.onFiles (does_filing.mpr first)).bind (goes.bind
        ((Does.onFiles (does_filing.mpr second)).bind (does_pure.mpr ⟨rfl, rfl⟩)))))

theorem exists_sweepArchive (at_ : FileAt w.files p folder name)
    (kind : Path.kind ⟨name⟩ = .archive) (short : p.Short) (short' : (stagingFile p).Short)
    (there : w.files.item? (folder ++ [name]) = some (.file content))
    (sweeps : Sweeps renamer .archive content isNew out) :
    ∃ w', Does (sweepArchive renamer p) w () w' := by
  let v : World := { w with progress := w.progress.count .seeArchive }
  have seen : Does (onProgress (count .seeArchive)) w () v := does_countNow.mpr rfl
  -- Whatever was staged, the staging file is there, and the archive is where it was.
  have staged : ∀ {a r}, Archive.ofBytes content = .ok a → RebuildsTo renamer a r →
      ∃ u, Does (stageArchive renamer p (stagingFile p)) v r.changed u ∧
        Names u.files.item? p (folder ++ [name]) ∧
        u.files.item? (folder ++ [name]) = some (.file content) ∧
        Names u.files.item? (stagingFile p) (folder ++ [name ++ stagingSuffix]) ∧
        u.files.item? (folder ++ [name ++ stagingSuffix]) = some (.file (encode r.entries)) := by
    intro a r opened rebuilt
    have at_ : FileAt v.files p folder name := at_
    obtain ⟨u, stages, put⟩ := exists_stageArchive at_ kind short short' there opened rebuilt
    have sub := put.sub (at_.free kind)
    exact ⟨u, stages, at_.names.mono sub, sub there, at_.names_staging.mono sub, put.there⟩
  cases sweeps with
  | keptArchive opened rebuilt same =>
    obtain ⟨u, stages, -, -, names, filled⟩ := staged opened rebuilt
    rw [same] at stages
    have removes := removeFile_does names at_.plain_staging short' filled (by simp)
    exact ⟨_, seen.bind ((does_tryCatch.mpr (.inl stages)).bind
      ((Does.onFiles (does_filing.mpr removes)).bind Does.tellNow))⟩
  | rebuiltArchive opened rebuilt changed =>
    obtain ⟨u, stages, names, still, names', filled⟩ := staged opened rebuilt
    rw [changed] at stages
    have moves := moveFile_does names' at_.plain_staging short' filled names at_.plain short still
    exact ⟨_, seen.bind ((does_tryCatch.mpr (.inl stages)).bind
      ((Does.onFiles (does_filing.mpr moves)).bind (Does.countNow.bind Does.tellNow)))⟩

/-- **A file is swept if its content allows it**, and its path is short enough. -/
theorem exists_sweepFile (at_ : FileAt w.files p folder name) (short : p.Short)
    (short' : p.kind = .archive → (stagingFile p).Short)
    (there : w.files.item? (folder ++ [name]) = some (.file content))
    (sweeps : Sweeps renamer p.kind content isNew out) :
    ∃ w', Does (sweepFile renamer p) w () w' := by
  unfold sweepFile
  cases kind : p.kind with
  | classFile =>
    rw [kind] at sweeps
    exact exists_sweepClass at_ short there sweeps
  | archive =>
    rw [kind] at sweeps
    exact exists_sweepArchive at_ (at_.kind_eq.symm.trans kind) short (short' kind) there sweeps
  | other => exact ⟨_, Does.tellNow⟩

end ClassNaming
