import ClassNaming.Failure

/-!
# Jobs

A job works on a state and gives a result or fails.  What it did to the state before it failed stays
done, so a failed job has a final state like any other.

A job is carried out in a monad.  In `Id` it always comes to an end.  In `Option` it need not: if it
goes on for ever it has no end at all, neither a result or a failure nor a final state.

## Main Definitions

* `Job` - a job on states of a type
* `Job.during` - a job as a part of an action
* `Job.within` - a job on a part of a larger state
* `Job.sure` - a job that always ends, as one that need not
* `attempt`, `demand`, `await` - a computation with failures of its own, as a job
-/

namespace ClassNaming

/-- A computation on a state that may fail and leaves the state behind whenever it ends. -/
abbrev Job (m : Type → Type) (σ : Type) : Type → Type := ExceptT Failure (StateT σ m)

variable {m : Type → Type} [Monad m] {σ τ ε α : Type}

namespace Job

/-- The outcome of a job, and the state that it leaves. -/
def runOn (job : Job m σ α) (s : σ) : m (Except Failure α × σ) := job s

/-- Fails with a cause. -/
def fail (cause : Cause) : Job m σ α := throw (Failure.ofCause cause)

/-- A job whose failures name the action that it is a part of. -/
def during (action : Action) (job : Job m σ α) : Job m σ α := fun s => do
  match ← job.runOn s with
  | (.error f, s) => return (.error (f.during action), s)
  | (.ok a, s) => return (.ok a, s)

/-- A job on a part of a state. -/
def within (part : σ → τ) (put : τ → σ → σ) (job : Job m τ α) : Job m σ α := fun s => do
  let (result, t) ← job.runOn (part s)
  return (result, put t s)

/-- A job that always ends, as one that need not. -/
def sure (job : Job Id σ α) : Job Option σ α := fun s => some (job.runOn s)

end Job

/-- A computation on the state whose failures are causes of their own kind. -/
def attempt (cause : ε → Cause) (job : ExceptT ε (StateT σ m) α) : Job m σ α := fun s => do
  match ← StateT.run (ExceptT.run job) s with
  | (.error e, s) => return (.error (Failure.ofCause (cause e)), s)
  | (.ok a, s) => return (.ok a, s)

/-- A result that must not be a failure. -/
def demand (cause : ε → Cause) : Except ε α → Job m σ α
  | .ok a => pure a
  | .error e => Job.fail (cause e)

/-- A result that may never come, and must not be a failure. -/
def await (cause : ε → Cause) (result : Option (Except ε α)) : Job Option σ α := fun s => do
  (demand cause (← result)).runOn s

end ClassNaming
