import ClassNaming.Proofs.Job
import ClassNaming.Run.World

/-!
# Laws of jobs on the world

A job on a part of the world does what it does to that part, and leaves the other parts alone.

## Main Results

* `does_onFiles`, `does_onProgress` - jobs on the files, and on counters and events
* `does_countNow`, `does_tellNow` - a step of the counters, and an event
* `exists_of_ending`, `exists_of_done`, `exists_of_failed` - jobs whose end was computed
-/

namespace ClassNaming

variable {α : Type} {w w' : World} {f : Failure}

/-- A job on the files changes nothing else of the world. -/
theorem does_onFiles {job : Job Id FileTree α} {a : α} :
    Does (onFiles job) w a w' ↔ ∃ t, Does job w.files a t ∧ { w with files := t } = w' := by
  rw [onFiles, does_within]
  simp only [does_sure]

theorem Does.onFiles {job : Job Id FileTree α} {a : α} {t : FileTree}
    (does : Does job w.files a t) :
    Does (onFiles job) w a { w with files := t } :=
  does_onFiles.mpr ⟨t, does, rfl⟩

theorem fails_onFiles {job : Job Id FileTree α} :
    Fails (onFiles job) w f w' ↔ ∃ t, Fails job w.files f t ∧ { w with files := t } = w' := by
  rw [onFiles, fails_within]
  simp only [fails_sure]

/-- A job on the progress changes nothing else of the world. -/
theorem does_onProgress {job : Job Option Progress α} {a : α} :
    Does (onProgress job) w a w' ↔
      ∃ p, Does job w.progress a p ∧ { w with progress := p } = w' :=
  does_within

/-- A count changes the tally. -/
@[simp] theorem does_countNow {step : Tally → Tally} {x : Unit} :
    Does (onProgress (count step)) w x w' ↔
      { w with progress := w.progress.count step } = w' := by
  simp [does_onProgress, count]

/-- What is told is added to the events. -/
@[simp] theorem does_tellNow {e : Event} {x : Unit} :
    Does (onProgress (tell e)) w x w' ↔ { w with progress := w.progress.tell e } = w' := by
  simp [does_onProgress, tell]

theorem Does.countNow {step : Tally → Tally} :
    Does (onProgress (count step)) w () { w with progress := w.progress.count step } :=
  does_countNow.mpr rfl

theorem Does.tellNow {e : Event} :
    Does (onProgress (tell e)) w () { w with progress := w.progress.tell e } :=
  does_tellNow.mpr rfl

/-- A line is printed behind those that were. -/
theorem Does.say {line : String} :
    Does (say line) w () { w with printed := line :: w.printed } :=
  does_modify.mpr rfl

/-- Telling what lies in the folder changes no files. -/
theorem does_tellListing (does : Does tellListing w () w') : w.files = w'.files := by
  simp only [tellListing, does_bind, does_get] at does
  obtain ⟨_, _, ⟨rfl, rfl⟩, does⟩ := does
  rw [← does_tellNow.mp does]

/-- Where a listing begins can always be told. -/
theorem exists_tellListing (w : World) : ∃ v, Does tellListing w () v :=
  ⟨_, (does_get.mpr ⟨rfl, rfl⟩).bind Does.tellNow⟩

/-- It cannot fail. -/
theorem fails_tellListing : ¬ Fails tellListing w f w' := by
  simp [tellListing, onProgress, tell]

/-! ### Jobs that go on for ever -/

/-- What is done with the files alone always comes to an end. -/
@[simp] theorem goesOn_onFiles {job : Job Id FileTree α} : ¬ GoesOn (onFiles job) w := by
  simp [onFiles]

/-- A job on the progress goes on in the world if it does by itself. -/
theorem goesOn_onProgress {job : Job Option Progress α} :
    GoesOn (onProgress job) w ↔ GoesOn job w.progress :=
  goesOn_within

@[simp] theorem goesOn_countNow {step : Tally → Tally} : ¬ GoesOn (onProgress (count step)) w := by
  simp [goesOn_onProgress, count]

@[simp] theorem goesOn_tellNow {e : Event} : ¬ GoesOn (onProgress (tell e)) w := by
  simp [goesOn_onProgress, tell]

@[simp] theorem goesOn_tellListing : ¬ GoesOn tellListing w := by
  simp [tellListing]

/-! ### Ends that were computed -/

section Computed

variable (job : Job Option World α) (w : World) (property : World → Bool)

/-- What a job comes to, if it was found that it comes to something with a property. -/
theorem exists_of_ending (ends : (ending job w).any (fun end_ => property end_.2) = true) :
    ∃ outcome w', ending job w = some (outcome, w') ∧ property w' = true := by
  obtain ⟨⟨outcome, w'⟩, same, holds⟩ := (Option.any_eq_true _ _).mp ends
  exact ⟨outcome, w', same, holds⟩

/-- What a job does, if it was found that it does something with a property. -/
theorem exists_of_done
    (ends : (ending job w).any (fun end_ => end_.1.isOk && property end_.2) = true) :
    ∃ a w', Does job w a w' ∧ property w' = true := by
  obtain ⟨⟨e | a, w'⟩, same, holds⟩ := (Option.any_eq_true _ _).mp ends
  · cases holds
  · exact ⟨a, w', same, holds⟩

/-- How a job fails, if it was found that it fails and leaves something with a property. -/
theorem exists_of_failed
    (ends : (ending job w).any (fun end_ => !end_.1.isOk && property end_.2) = true) :
    ∃ f w', Fails job w f w' ∧ property w' = true := by
  obtain ⟨⟨f | a, w'⟩, same, holds⟩ := (Option.any_eq_true _ _).mp ends
  · exact ⟨f, w', same, holds⟩
  · cases holds

end Computed

end ClassNaming
