import ClassNaming.Proofs.Job

/-!
# What a job leaves alone

A job *keeps* a view of its state if the view is the same at the end, whether the job does its work
or fails.  Jobs that are put together of jobs that keep a view keep it, too.  A job on a part of the
state keeps every view that does not depend on that part.

## Main Definitions

* `Keeps` - a job that leaves a view of the state alone

## Main Results

* `Keeps.bind`, `Keeps.tryCatch`, `Keeps.forM` - jobs put together
* `Keeps.during`, `Keeps.attempt`, `Keeps.within` - jobs as parts of others
-/

namespace ClassNaming

variable {m : Type → Type} [Monad m] {ε σ τ ρ α β : Type} {view : σ → τ}
  {job : ExceptT ε (StateT σ m) α} {s s' : σ} {a : α} {e : ε}

/-- A job leaves a view of the state alone, however it ends. -/
def Keeps (view : σ → τ) (job : ExceptT ε (StateT σ m) α) : Prop :=
  ∀ ⦃s outcome s'⦄, ending job s = pure (outcome, s') → view s' = view s

/-- A job that does its work leaves a view alone that it keeps. -/
theorem Keeps.does (keeps : Keeps view job) (does : Does job s a s') : view s' = view s :=
  keeps does

/-- So does one that fails. -/
theorem Keeps.fails (keeps : Keeps view job) (fails : Fails job s e s') : view s' = view s :=
  keeps fails

/-- It is enough to look at jobs that do their work, and at jobs that fail. -/
theorem keeps_of (done : ∀ {s a s'}, Does job s a s' → view s' = view s)
    (failed : ∀ {s e s'}, Fails job s e s' → view s' = view s) : Keeps view job := by
  intro s outcome s' ends
  rcases does_or_fails ends with ⟨a, -, does⟩ | ⟨e, -, fails⟩
  · exact done does
  · exact failed fails

variable [Definite m]

namespace Keeps

/-! ### Steps -/

theorem pure {a : α} : Keeps view (pure a : ExceptT ε (StateT σ m) α) :=
  keeps_of (fun does => congrArg view (does_pure.mp does).2.symm) fun fails =>
    absurd fails fails_pure

theorem throw {e : ε} : Keeps view (throw e : ExceptT ε (StateT σ m) α) :=
  keeps_of (fun does => absurd does does_throw) fun fails =>
    congrArg view (fails_throw.mp fails).2.symm

theorem get : Keeps view (get : ExceptT ε (StateT σ m) σ) :=
  keeps_of (fun does => congrArg view (does_get.mp does).2.symm) fun fails =>
    absurd fails fails_get

/-- A result that is already known keeps everything. -/
theorem lift {x : Except ε α} : Keeps view (liftM x : ExceptT ε (StateT σ m) α) :=
  keeps_of (fun does => congrArg view (does_lift.mp does).2.symm) fun fails =>
    congrArg view (fails_lift.mp fails).2.symm

/-! ### Sequences and handlers -/

/-- Two jobs in a row keep what each of them keeps. -/
theorem bind {next : α → ExceptT ε (StateT σ m) β} (first : Keeps view job)
    (later : ∀ a, Keeps view (next a)) : Keeps view (job >>= next) := by
  refine keeps_of (fun does => ?_) fun fails => ?_
  · obtain ⟨a, t, begun, rest⟩ := does_bind.mp does
    rw [(later a).does rest, first.does begun]
  · rcases fails_bind.mp fails with stopped | ⟨a, t, begun, rest⟩
    · exact first.fails stopped
    · rw [(later a).fails rest, first.does begun]

theorem map {g : α → β} (keeps : Keeps view job) : Keeps view (g <$> job) := by
  rw [map_eq_pure_bind]
  exact keeps.bind fun _ => pure

/-- A job with a handler keeps what both keep. -/
theorem tryCatch {handler : ε → ExceptT ε (StateT σ m) α} (first : Keeps view job)
    (later : ∀ e, Keeps view (handler e)) : Keeps view (tryCatch job handler) := by
  refine keeps_of (fun does => ?_) fun fails => ?_
  · rcases does_tryCatch.mp does with done | ⟨e, t, stopped, rest⟩
    · exact first.does done
    · rw [(later e).does rest, first.fails stopped]
  · obtain ⟨e, t, stopped, rest⟩ := fails_tryCatch.mp fails
    rw [(later e).fails rest, first.fails stopped]

/-- A job for each of a list keeps what it keeps for each. -/
theorem forM {list : List β} {work : β → ExceptT ε (StateT σ m) PUnit}
    (each : ∀ x ∈ list, Keeps view (work x)) : Keeps view (list.forM work) := by
  induction list with
  | nil => exact pure
  | cons x rest ih =>
    exact (each x List.mem_cons_self).bind fun _ => ih fun y mem => each y (.tail x mem)

/-! ### Parts of a job -/

variable {work : Job m σ α}

theorem fail {cause : Cause} : Keeps view (Job.fail cause : Job m σ α) := throw

theorem demand {cause : ε → Cause} {x : Except ε α} :
    Keeps view (demand cause x : Job m σ α) := by
  cases x with
  | ok a => exact pure
  | error e => exact fail

theorem await {cause : ε → Cause} {x : Option (Except ε α)} :
    Keeps view (await cause x : Job Option σ α) :=
  keeps_of (fun does => congrArg view (does_await.mp does).2.symm) fun fails => by
    obtain ⟨-, -, -, rfl⟩ := fails_await.mp fails
    rfl

/-- What a job is done for makes no difference. -/
theorem during {action : Action} (keeps : Keeps view work) : Keeps view (work.during action) := by
  refine keeps_of (fun does => keeps.does (does_during.mp does)) fun fails => ?_
  obtain ⟨f, stopped, -⟩ := fails_during.mp fails
  exact keeps.fails stopped

theorem attempt {cause : ε → Cause} (keeps : Keeps view job) : Keeps view (attempt cause job) := by
  refine keeps_of (fun does => keeps.does (does_attempt.mp does)) fun fails => ?_
  obtain ⟨e, stopped, -⟩ := fails_attempt.mp fails
  exact keeps.fails stopped

/-- A job on a part of the state keeps what does not depend on that part. -/
theorem within {part : σ → ρ} {put : ρ → σ → σ} {inner : Job m ρ α}
    (apart : ∀ t s, view (put t s) = view s) : Keeps view (inner.within part put) := by
  refine keeps_of (fun does => ?_) fun fails => ?_
  · obtain ⟨t, -, rfl⟩ := does_within.mp does
    exact apart t _
  · obtain ⟨t, -, rfl⟩ := fails_within.mp fails
    exact apart t _

end Keeps

end ClassNaming
