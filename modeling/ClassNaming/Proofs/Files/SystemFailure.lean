import ClassNaming.Proofs.Files.Removal

/-!
# Failures of the operating system

A failure of reading or writing comes from the operating system, or from data that is not what it
should be.  Following a path fails for the first reason only, and so do the operations on files that
look at no content.  They leave everything as it was.

## Main Definitions

* `IoError.isOfSystem`, `Cause.isOfSystem`, `Failure.isOfSystem` - whether a failure comes from the
  operating system

## Main Results

* `isOfSystem_of_resolve`, `isOfSystem_of_find` - paths that lead nowhere
* `fails_readFile`, `fails_writeFile`, `fails_removeFile`, `fails_moveFile` - operations that fail
* `fails_listNow` - a listing that fails
-/

namespace ClassNaming

/-- Whether a failure is reported by the operating system.  The others are found in data. -/
def IoError.isOfSystem : IoError → Bool
  | .invalidText | .shortData | .badChecksum | .corruptDeflate | .incompleteDeflate => false
  | .notFound | .alreadyExists | .notDirectory | .isDirectory | .invalidArgument
  | .directoryNotEmpty | .nameTooLong | .nulInPath | .tooManyLinks | .busy => true

/-- Whether the operating system reported what went wrong. -/
def Cause.isOfSystem : Cause → Bool
  | .io e => e.isOfSystem
  | .listing _ _ _ => true
  | .classFile _ | .mapping _ | .archive _ | .missingNamespace _ | .missingPath _ | .emptyMapping _
  | .copyTargetExists _ | .nestedTooDeep | .other _ => false

def Failure.isOfSystem (f : Failure) : Bool := f.cause.isOfSystem

namespace FileTree

variable {t u : FileTree} {p q : Path} {aim : Aim} {e : IoError} {spot : Spot}
  {steps : List PathStep} {links : Nat} {f : Failure} {content : ByteArray}

/-! ### Paths that lead nowhere -/

theorem isOfSystem_of_advance (stuck : t.advance aim spot steps = .error e) :
    e.isOfSystem = true := by
  fun_induction advance t aim spot steps <;> grind [IoError.isOfSystem]

theorem isOfSystem_of_resolveFrom (stuck : t.resolveFrom aim links spot steps = .error e) :
    e.isOfSystem = true := by
  fun_induction resolveFrom t aim links spot steps
  case case1 =>
    cases stuck
    rfl
  case case2 stuck' =>
    cases stuck
    exact isOfSystem_of_advance stuck'
  case case3 => cases stuck
  case case4 next => exact next stuck

theorem isOfSystem_of_resolve (stuck : t.resolve aim p = .error e) : e.isOfSystem = true := by
  unfold resolve at stuck
  split at stuck
  case h_1 refused =>
    cases stuck
    unfold Path.check at refused
    grind [IoError.isOfSystem]
  case h_2 => exact isOfSystem_of_resolveFrom stuck

theorem isOfSystem_of_find (stuck : t.find aim p = .error e) : e.isOfSystem = true := by
  unfold find itemAt at stuck
  split at stuck
  case h_1 stuck' =>
    cases stuck
    exact isOfSystem_of_resolve stuck'
  case h_2 =>
    split at stuck
    · cases stuck
    · cases stuck
      rfl

/-! ### Operations that fail -/

theorem fails_readFile (fails : Fails (readFile p) t e u) : t = u ∧ e.isOfSystem = true := by
  simp only [readFile, fails_bind, fails_get, does_get, fails_lift, does_lift, false_or] at fails
  obtain ⟨_, _, ⟨rfl, rfl⟩, ⟨stuck, rfl⟩ | ⟨⟨_, item⟩, _, ⟨-, rfl⟩, fails⟩⟩ := fails
  · exact ⟨rfl, isOfSystem_of_find stuck⟩
  · split at fails
    · exact absurd fails fails_pure
    · obtain ⟨rfl, rfl⟩ := fails_throw.mp fails
      exact ⟨rfl, rfl⟩

theorem fails_writeFile (fails : Fails (writeFile p content) t e u) :
    t = u ∧ e.isOfSystem = true := by
  simp [writeFile] at fails
  grind [IoError.isOfSystem, isOfSystem_of_resolve]

theorem fails_removeFile (fails : Fails (removeFile p) t e u) : t = u ∧ e.isOfSystem = true := by
  simp only [removeFile, fails_bind, fails_get, does_get, fails_lift, does_lift, false_or] at fails
  obtain ⟨_, _, ⟨rfl, rfl⟩, ⟨stuck, rfl⟩ | ⟨⟨_, item⟩, _, ⟨-, rfl⟩, fails⟩⟩ := fails
  · exact ⟨rfl, isOfSystem_of_find stuck⟩
  · split at fails
    · obtain ⟨rfl, rfl⟩ := fails_throw.mp fails
      exact ⟨rfl, rfl⟩
    · exact absurd fails fails_set

theorem fails_moveFile (fails : Fails (moveFile p q) t e u) : t = u ∧ e.isOfSystem = true := by
  simp [moveFile] at fails
  grind [IoError.isOfSystem, isOfSystem_of_find, isOfSystem_of_resolve]

theorem fails_listNow (fails : Fails (listNow p) t f u) : t = u ∧ f.isOfSystem = true := by
  simp only [listNow, fails_bind, fails_get, does_get, fails_demand, false_or] at fails
  obtain ⟨_, _, ⟨rfl, rfl⟩, _, -, rfl, rfl⟩ := fails
  exact ⟨rfl, rfl⟩

end FileTree

end ClassNaming
