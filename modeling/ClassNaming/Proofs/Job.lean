import ClassNaming.Job

/-!
# Laws of jobs

What a job comes to is told by two relations: it *does* its work, with a result, or it *fails*, with
an error, and in both cases it leaves a state behind.  For every way to put jobs together there is
one law for each of the two, so that a run is taken apart by rewriting, step by step, and no proof
about a job unfolds the monad.

The relations are stated for all errors, since operations on files fail otherwise than jobs, and for
all monads in which a computation comes to one thing if it comes to anything.  In `Id` each job does
its work or fails.  In `Option` it may do neither; then it *goes on* for ever, which is a third
relation with laws of its own.

## Main Definitions

* `Definite` - the monads of jobs
* `ending` - what a job comes to
* `Does`, `Fails` - the two ways of it
* `GoesOn` - a job that comes to nothing

## Main Results

* `does_bind`, `fails_bind` - jobs in sequence
* `does_tryCatch`, `fails_tryCatch` - a job and what is done if it fails
* `exists_of_fails_forM` - a job that is run for each of several things stops at the first failure
* `does_attempt`, `does_during`, `does_within` and those for failures - jobs as parts of others
* `done_or_failed` - a job that always ends does its work or fails
* `done_or_failed_or_goesOn` - one that need not end goes on for ever if it does neither
* `goesOn_bind`, `goesOn_tryCatch`, `goesOn_within`, `goesOn_await` - jobs that go on in a part
-/

namespace ClassNaming

/-- A monad in which a computation comes to one thing, if it comes to anything: a sequence does so
only by way of what its first part comes to. -/
class Definite (m : Type → Type) [Monad m] : Prop extends LawfulMonad m where
  pure_inj {α : Type} {a b : α} : (pure a : m α) = pure b → a = b
  bind_eq_pure {α β : Type} {x : m α} {f : α → m β} {b : β} :
    x >>= f = pure b → ∃ a, x = pure a ∧ f a = pure b

instance : Definite Id where
  pure_inj same := same
  bind_eq_pure same := ⟨_, rfl, same⟩

instance : Definite Option where
  pure_inj same := Option.some.inj same
  bind_eq_pure same := Option.bind_eq_some_iff.mp same

variable {m : Type → Type} [Monad m] {ε σ τ α β : Type} {job : ExceptT ε (StateT σ m) α}
  {s s' : σ} {a : α} {b : β} {e : ε}

/-- What a job comes to, and the state that it leaves. -/
def ending (job : ExceptT ε (StateT σ m) α) (s : σ) : m (Except ε α × σ) :=
  StateT.run (ExceptT.run job) s

/-- A job does its work, from one state to another one, with a result. -/
def Does (job : ExceptT ε (StateT σ m) α) (s : σ) (a : α) (s' : σ) : Prop :=
  ending job s = pure (.ok a, s')

/-- A job fails with an error, and leaves a state behind. -/
def Fails (job : ExceptT ε (StateT σ m) α) (s : σ) (e : ε) (s' : σ) : Prop :=
  ending job s = pure (.error e, s')

omit [Monad m] in
/-- Jobs are the same if they always come to the same. -/
theorem eq_of_ending {job' : ExceptT ε (StateT σ m) α} (same : ∀ s, ending job s = ending job' s) :
    job = job' :=
  funext same

/-- A job that always ends does its work or fails. -/
theorem done_or_failed (job : ExceptT ε (StateM σ) α) (s : σ) :
    (∃ a s', Does job s a s') ∨ ∃ e s', Fails job s e s' := by
  unfold Does Fails
  rcases ending job s with ⟨e | a, s'⟩
  · exact .inr ⟨e, s', rfl⟩
  · exact .inl ⟨a, s', rfl⟩

/-- A job that ended did its work or failed. -/
theorem does_or_fails {job : ExceptT ε (StateT σ m) α} {outcome : Except ε α}
    (ends : ending job s = pure (outcome, s')) :
    (∃ a, outcome = .ok a ∧ Does job s a s') ∨ ∃ e, outcome = .error e ∧ Fails job s e s' := by
  cases outcome with
  | ok a => exact .inl ⟨a, rfl, ends⟩
  | error e => exact .inr ⟨e, rfl, ends⟩

private theorem ending_pure {a' : α} :
    ending (pure a' : ExceptT ε (StateT σ m) α) s = pure (.ok a', s) := rfl

private theorem ending_throw {e' : ε} :
    ending (throw e' : ExceptT ε (StateT σ m) α) s = pure (.error e', s) := rfl

/-- The second of two jobs is done from where the first one ends, if that does its work. -/
theorem ending_bind {next : α → ExceptT ε (StateT σ m) β} :
    ending (job >>= next) s = ending job s >>= fun
      | (.ok a, t) => ending (next a) t
      | (.error e, t) => pure (.error e, t) := by
  unfold ending
  rw [ExceptT.run_bind, StateT.run_bind]
  refine bind_congr fun r => ?_
  rcases r with ⟨e | a, t⟩ <;> rfl

variable [Definite m]

theorem pure_eq_pure_iff {x y : α} : (pure x : m α) = pure y ↔ x = y :=
  ⟨Definite.pure_inj, congrArg pure⟩

/-- A job ends in one way only. -/
theorem ending_unique {outcome outcome' : Except ε α} {s'' : σ}
    (ends : ending job s = pure (outcome, s')) (ends' : ending job s = pure (outcome', s'')) :
    outcome = outcome' ∧ s' = s'' :=
  Prod.mk.inj (Definite.pure_inj (ends.symm.trans ends'))

/-- A job does its work in one way only. -/
theorem Does.unique {a' : α} {s'' : σ} (does : Does job s a s') (does' : Does job s a' s'') :
    a = a' ∧ s' = s'' := by
  obtain ⟨same, rfl⟩ := ending_unique does does'
  exact ⟨Except.ok.inj same, rfl⟩

theorem Does.not_fails {s'' : σ} (does : Does job s a s') : ¬ Fails job s e s'' := by
  intro fails
  cases (ending_unique does fails).1

/-- A job fails in one way only. -/
theorem Fails.unique {e' : ε} {s'' : σ} (fails : Fails job s e s') (fails' : Fails job s e' s'') :
    e = e' ∧ s' = s'' := by
  obtain ⟨same, rfl⟩ := ending_unique fails fails'
  exact ⟨Except.error.inj same, rfl⟩

/-- What a job that is known to come to something does. -/
theorem does_of_ending {outcome : Except ε α} {t : σ} (ends : ending job s = pure (outcome, t)) :
    Does job s a s' ↔ outcome = .ok a ∧ t = s' := by
  rw [Does, ends, pure_eq_pure_iff, Prod.mk.injEq]

/-- How a job that is known to come to something fails. -/
theorem fails_of_ending {outcome : Except ε α} {t : σ} (ends : ending job s = pure (outcome, t)) :
    Fails job s e s' ↔ outcome = .error e ∧ t = s' := by
  rw [Fails, ends, pure_eq_pure_iff, Prod.mk.injEq]

/-! ### Steps -/

private theorem ending_liftM {x : StateT σ m α} :
    ending (liftM x : ExceptT ε (StateT σ m) α) s = x.run s >>= fun p => pure (.ok p.1, p.2) := by
  unfold ending
  rw [ExceptT.run_liftM]
  simp

private theorem ending_get :
    ending (get : ExceptT ε (StateT σ m) σ) s = pure (.ok s, s) := by
  show ending (liftM (get : StateT σ m σ)) s = _
  rw [ending_liftM, StateT.run_get, pure_bind]

private theorem ending_set {t : σ} :
    ending (set t : ExceptT ε (StateT σ m) PUnit) s = pure (.ok .unit, t) := by
  show ending (liftM (set t : StateT σ m PUnit)) s = _
  rw [ending_liftM, StateT.run_set, pure_bind]

private theorem ending_modify {f : σ → σ} :
    ending (modify f : ExceptT ε (StateT σ m) PUnit) s = pure (.ok .unit, f s) := by
  show ending (liftM (modify f : StateT σ m PUnit)) s = _
  rw [ending_liftM, StateT.run_modify, pure_bind]

@[simp] theorem does_pure {a' : α} :
    Does (pure a' : ExceptT ε (StateT σ m) α) s a s' ↔ a' = a ∧ s = s' := by
  rw [does_of_ending ending_pure, Except.ok.injEq]

@[simp] theorem fails_pure {a' : α} :
    ¬ Fails (pure a' : ExceptT ε (StateT σ m) α) s e s' := by
  simp [fails_of_ending ending_pure]

@[simp] theorem does_throw {e' : ε} : ¬ Does (throw e' : ExceptT ε (StateT σ m) α) s a s' := by
  simp [does_of_ending ending_throw]

@[simp] theorem fails_throw {e' : ε} :
    Fails (throw e' : ExceptT ε (StateT σ m) α) s e s' ↔ e' = e ∧ s = s' := by
  rw [fails_of_ending ending_throw, Except.error.injEq]

@[simp] theorem does_get {t : σ} :
    Does (get : ExceptT ε (StateT σ m) σ) s t s' ↔ s = t ∧ s = s' := by
  rw [does_of_ending ending_get, Except.ok.injEq]

@[simp] theorem fails_get : ¬ Fails (get : ExceptT ε (StateT σ m) σ) s e s' := by
  simp [fails_of_ending ending_get]

@[simp] theorem does_set {t : σ} {u : PUnit} :
    Does (set t : ExceptT ε (StateT σ m) PUnit) s u s' ↔ t = s' := by
  simp [does_of_ending ending_set]

@[simp] theorem fails_set {t : σ} : ¬ Fails (set t : ExceptT ε (StateT σ m) PUnit) s e s' := by
  simp [fails_of_ending ending_set]

@[simp] theorem does_modify {f : σ → σ} {u : PUnit} :
    Does (modify f : ExceptT ε (StateT σ m) PUnit) s u s' ↔ f s = s' := by
  simp [does_of_ending ending_modify]

@[simp] theorem fails_modify {f : σ → σ} :
    ¬ Fails (modify f : ExceptT ε (StateT σ m) PUnit) s e s' := by
  simp [fails_of_ending ending_modify]

/-- A result of a computation without state. -/
@[simp] theorem does_lift {x : Except ε α} :
    Does (liftM x : ExceptT ε (StateT σ m) α) s a s' ↔ x = .ok a ∧ s = s' :=
  does_of_ending rfl

@[simp] theorem fails_lift {x : Except ε α} :
    Fails (liftM x : ExceptT ε (StateT σ m) α) s e s' ↔ x = .error e ∧ s = s' :=
  fails_of_ending rfl

/-! ### Sequences and handlers -/

/-- A job that is done first leaves what comes then. -/
theorem Does.ending_bind {next : α → ExceptT ε (StateT σ m) β} {t : σ} (first : Does job s a t) :
    ending (job >>= next) s = ending (next a) t := by
  rw [ClassNaming.ending_bind, first, pure_bind]

/-- Jobs are done one after the other. -/
theorem Does.bind {next : α → ExceptT ε (StateT σ m) β} {t : σ} (first : Does job s a t)
    (later : Does (next a) t b s') : Does (job >>= next) s b s' :=
  first.ending_bind.trans later

theorem Does.bind_fails {next : α → ExceptT ε (StateT σ m) β} {t : σ} (first : Does job s a t)
    (later : Fails (next a) t e s') : Fails (job >>= next) s e s' :=
  first.ending_bind.trans later

theorem Fails.bind {next : α → ExceptT ε (StateT σ m) β} (first : Fails job s e s') :
    Fails (job >>= next) s e s' := by
  rw [Fails, ending_bind, first, pure_bind]

@[simp] theorem does_bind {next : α → ExceptT ε (StateT σ m) β} :
    Does (job >>= next) s b s' ↔ ∃ a t, Does job s a t ∧ Does (next a) t b s' := by
  refine ⟨fun does => ?_, fun ⟨_, _, first, later⟩ => first.bind later⟩
  rw [Does, ending_bind] at does
  obtain ⟨⟨e | a, t⟩, first, later⟩ := Definite.bind_eq_pure does
  · cases Definite.pure_inj later
  · exact ⟨a, t, first, later⟩

@[simp] theorem fails_bind {next : α → ExceptT ε (StateT σ m) β} :
    Fails (job >>= next) s e s' ↔
      Fails job s e s' ∨ ∃ a t, Does job s a t ∧ Fails (next a) t e s' := by
  constructor
  · intro fails
    rw [Fails, ending_bind] at fails
    obtain ⟨⟨f | a, t⟩, first, later⟩ := Definite.bind_eq_pure fails
    · cases Definite.pure_inj later
      exact .inl first
    · exact .inr ⟨a, t, first, later⟩
  · rintro (first | ⟨_, _, first, later⟩)
    · exact first.bind
    · exact first.bind_fails later

@[simp] theorem does_map {g : α → β} :
    Does (g <$> job) s b s' ↔ ∃ a, Does job s a s' ∧ g a = b := by
  rw [map_eq_pure_bind, does_bind]
  simp only [does_pure]
  constructor
  · rintro ⟨a, _, does, same, rfl⟩
    exact ⟨a, does, same⟩
  · rintro ⟨a, does, same⟩
    exact ⟨a, s', does, same, rfl⟩

@[simp] theorem fails_map {g : α → β} : Fails (g <$> job) s e s' ↔ Fails job s e s' := by
  rw [map_eq_pure_bind, fails_bind]
  simp

private theorem ending_tryCatch {handler : ε → ExceptT ε (StateT σ m) α} :
    ending (tryCatch job handler) s = ending job s >>= fun
      | (.ok a, t) => pure (.ok a, t)
      | (.error e, t) => ending (handler e) t := by
  unfold ending
  rw [ExceptT.run_tryCatch, StateT.run_bind]
  refine bind_congr fun r => ?_
  rcases r with ⟨e | a, t⟩ <;> rfl

@[simp] theorem does_tryCatch {handler : ε → ExceptT ε (StateT σ m) α} :
    Does (tryCatch job handler) s a s' ↔
      Does job s a s' ∨ ∃ e t, Fails job s e t ∧ Does (handler e) t a s' := by
  unfold Does Fails
  rw [ending_tryCatch]
  constructor
  · intro ends
    obtain ⟨⟨e | a, t⟩, first, later⟩ := Definite.bind_eq_pure ends
    · exact .inr ⟨e, t, first, later⟩
    · exact .inl (first.trans later)
  · rintro (first | ⟨_, _, first, later⟩) <;> simp_all

@[simp] theorem fails_tryCatch {handler : ε → ExceptT ε (StateT σ m) α} :
    Fails (tryCatch job handler) s e s' ↔
      ∃ e' t, Fails job s e' t ∧ Fails (handler e') t e s' := by
  unfold Fails
  rw [ending_tryCatch]
  constructor
  · intro ends
    obtain ⟨⟨f | a, t⟩, first, later⟩ := Definite.bind_eq_pure ends
    · exact ⟨f, t, first, later⟩
    · cases Definite.pure_inj later
  · rintro ⟨_, _, first, later⟩
    rw [first, pure_bind]
    exact later

omit [Definite m] in
@[simp] theorem does_ite {c : Prop} [Decidable c] {job' : ExceptT ε (StateT σ m) α} :
    Does (if c then job else job') s a s' ↔ if c then Does job s a s' else Does job' s a s' := by
  split <;> rfl

omit [Definite m] in
@[simp] theorem fails_ite {c : Prop} [Decidable c] {job' : ExceptT ε (StateT σ m) α} :
    Fails (if c then job else job') s e s' ↔ if c then Fails job s e s' else Fails job' s e s' := by
  split <;> rfl

/-- If a job fails that is run for each of several things, then it fails for the first for which it
is not done. -/
theorem exists_of_fails_forM {τ : Type} {list : List τ} {work : τ → ExceptT ε (StateT σ m) PUnit}
    (fails : Fails (list.forM work) s e s') : ∃ before x after t, list = before ++ x :: after ∧
      Does (before.forM work) s .unit t ∧ Fails (work x) t e s' := by
  induction list generalizing s with
  | nil => exact absurd fails fails_pure
  | cons x rest ih =>
    rcases fails_bind.mp fails with first | ⟨_, t, first, later⟩
    · exact ⟨[], x, rest, s, rfl, does_pure.mpr ⟨rfl, rfl⟩, first⟩
    · obtain ⟨before, y, after, u, rfl, done, stop⟩ := ih later
      exact ⟨x :: before, y, after, u, rfl, first.bind done, stop⟩

/-- Several things are done up to the first for which the job fails. -/
theorem Fails.forM {τ : Type} {before after : List τ} {x : τ} {t : σ}
    {work : τ → ExceptT ε (StateT σ m) PUnit} (done : Does (before.forM work) s .unit t)
    (stop : Fails (work x) t e s') : Fails ((before ++ x :: after).forM work) s e s' := by
  induction before generalizing s with
  | nil =>
    obtain ⟨-, rfl⟩ := does_pure.mp done
    exact stop.bind
  | cons y before ih =>
    obtain ⟨_, u, first, later⟩ := does_bind.mp done
    exact first.bind_fails (ih later)

/-- A job that was done for each of several things was done for any of them. -/
theorem exists_of_does_forM {τ : Type} {list : List τ} {work : τ → ExceptT ε (StateT σ m) PUnit}
    (does : Does (list.forM work) s .unit s') {x : τ} (mem : x ∈ list) :
    ∃ t t', Does (work x) t .unit t' := by
  induction list generalizing s with
  | nil => cases mem
  | cons y rest ih =>
    obtain ⟨_, t, first, later⟩ := does_bind.mp does
    rcases List.mem_cons.mp mem with rfl | mem
    · exact ⟨s, t, first⟩
    · exact ih later mem

/-! ### Parts of a job -/

variable {work : Job m σ α} {f : Failure}

@[simp] theorem does_fail {cause : Cause} : ¬ Does (Job.fail cause : Job m σ α) s a s' := does_throw

@[simp] theorem fails_fail {cause : Cause} :
    Fails (Job.fail cause : Job m σ α) s f s' ↔ Failure.ofCause cause = f ∧ s = s' := fails_throw

/-- A job that differs from another one in its errors only does the same work. -/
private theorem does_of_mapError {ε' : Type} {outer : ExceptT ε' (StateT σ m) α} {g : ε → ε'}
    (turns : ending outer s = ending job s >>= fun p => pure (p.1.mapError g, p.2)) :
    Does outer s a s' ↔ Does job s a s' := by
  unfold Does
  rw [turns]
  constructor
  · intro ends
    obtain ⟨⟨e | a', t⟩, first, later⟩ := Definite.bind_eq_pure ends <;>
      cases Definite.pure_inj later
    exact first
  · intro does
    rw [does, pure_bind]
    rfl

private theorem fails_of_mapError {ε' : Type} {outer : ExceptT ε' (StateT σ m) α} {g : ε → ε'}
    {e' : ε'} (turns : ending outer s = ending job s >>= fun p => pure (p.1.mapError g, p.2)) :
    Fails outer s e' s' ↔ ∃ e, Fails job s e s' ∧ g e = e' := by
  unfold Fails
  rw [turns]
  constructor
  · intro ends
    obtain ⟨⟨e | a, t⟩, first, later⟩ := Definite.bind_eq_pure ends <;>
      cases Definite.pure_inj later
    exact ⟨e, first, rfl⟩
  · rintro ⟨e, fails, rfl⟩
    rw [fails, pure_bind]
    rfl

omit [Definite m] in
private theorem ending_during {action : Action} :
    ending (work.during action) s =
      ending work s >>= fun p => pure (p.1.mapError (Failure.during action), p.2) := by
  refine bind_congr fun r => ?_
  rcases r with ⟨f | a, t⟩ <;> rfl

@[simp] theorem does_during {action : Action} :
    Does (work.during action) s a s' ↔ Does work s a s' :=
  does_of_mapError ending_during

@[simp] theorem fails_during {action : Action} :
    Fails (work.during action) s f s' ↔ ∃ f', Fails work s f' s' ∧ f'.during action = f :=
  fails_of_mapError ending_during

omit [Definite m] in
private theorem ending_attempt {cause : ε → Cause} :
    ending (attempt cause job) s =
      ending job s >>= fun p => pure (p.1.mapError (Failure.ofCause ∘ cause), p.2) := by
  refine bind_congr fun r => ?_
  rcases r with ⟨e | a, t⟩ <;> rfl

@[simp] theorem does_attempt {cause : ε → Cause} :
    Does (attempt cause job) s a s' ↔ Does job s a s' :=
  does_of_mapError ending_attempt

@[simp] theorem fails_attempt {cause : ε → Cause} :
    Fails (attempt cause job) s f s' ↔
      ∃ e, Fails job s e s' ∧ Failure.ofCause (cause e) = f :=
  fails_of_mapError ending_attempt

/-- What a job on a part of the state comes to. -/
private theorem ending_within_iff {part : σ → τ} {put : τ → σ → σ} {inner : Job m τ α}
    {outcome : Except Failure α} : ending (inner.within part put) s = pure (outcome, s') ↔
      ∃ t, ending inner (part s) = pure (outcome, t) ∧ put t s = s' := by
  have turns : ending (inner.within part put) s =
      ending inner (part s) >>= fun p => pure (p.1, put p.2 s) := rfl
  rw [turns]
  constructor
  · intro ends
    obtain ⟨⟨outcome', t⟩, first, later⟩ := Definite.bind_eq_pure ends
    cases Definite.pure_inj later
    exact ⟨t, first, rfl⟩
  · rintro ⟨t, first, rfl⟩
    rw [first, pure_bind]

@[simp] theorem does_within {part : σ → τ} {put : τ → σ → σ} {inner : Job m τ α} :
    Does (inner.within part put) s a s' ↔ ∃ t, Does inner (part s) a t ∧ put t s = s' :=
  ending_within_iff

@[simp] theorem fails_within {part : σ → τ} {put : τ → σ → σ} {inner : Job m τ α} :
    Fails (inner.within part put) s f s' ↔ ∃ t, Fails inner (part s) f t ∧ put t s = s' :=
  ending_within_iff

@[simp] theorem does_sure {certain : Job Id σ α} :
    Does certain.sure s a s' ↔ Does certain s a s' :=
  ⟨Option.some.inj, congrArg some⟩

@[simp] theorem fails_sure {certain : Job Id σ α} :
    Fails certain.sure s f s' ↔ Fails certain s f s' :=
  ⟨Option.some.inj, congrArg some⟩

@[simp] theorem does_demand {cause : ε → Cause} {x : Except ε α} :
    Does (demand cause x : Job m σ α) s a s' ↔ x = .ok a ∧ s = s' := by
  cases x <;> simp [demand]

@[simp] theorem fails_demand {cause : ε → Cause} {x : Except ε α} :
    Fails (demand cause x : Job m σ α) s f s' ↔
      ∃ e, x = .error e ∧ Failure.ofCause (cause e) = f ∧ s = s' := by
  cases x <;> simp [demand]

/-- A result that never comes is neither had nor missed. -/
private theorem ending_await {cause : ε → Cause} {x : Option (Except ε α)} :
    ending (await cause x : Job Option σ α) s = x >>= fun result =>
      ending (demand cause result : Job Option σ α) s := rfl

@[simp] theorem does_await {cause : ε → Cause} {x : Option (Except ε α)} :
    Does (await cause x : Job Option σ α) s a s' ↔ x = some (.ok a) ∧ s = s' := by
  cases x with
  | none => simp [Does, ending_await]
  | some result =>
    show Does (demand cause result : Job Option σ α) s a s' ↔ _
    rw [does_demand, Option.some.injEq]

@[simp] theorem fails_await {cause : ε → Cause} {x : Option (Except ε α)} :
    Fails (await cause x : Job Option σ α) s f s' ↔
      ∃ e, x = some (.error e) ∧ Failure.ofCause (cause e) = f ∧ s = s' := by
  cases x with
  | none => simp [Fails, ending_await]
  | some result =>
    simp only [Option.some.injEq, ← fails_demand (m := Option)]
    rfl

/-! ### Jobs that go on for ever -/

section GoesOn

variable {job : ExceptT ε (StateT σ Option) α} {work : Job Option σ α}

/-- A job never comes to an end. -/
def GoesOn (job : ExceptT ε (StateT σ Option) α) (s : σ) : Prop :=
  ending job s = none

theorem GoesOn.not_does (goesOn : GoesOn job s) : ¬ Does job s a s' := by
  rw [Does, goesOn]
  rintro ⟨⟩

theorem GoesOn.not_fails (goesOn : GoesOn job s) : ¬ Fails job s e s' := by
  rw [Fails, goesOn]
  rintro ⟨⟩

/-- A job does its work, or it fails, or it goes on for ever. -/
theorem done_or_failed_or_goesOn (job : ExceptT ε (StateT σ Option) α) (s : σ) :
    (∃ a s', Does job s a s') ∨ (∃ e s', Fails job s e s') ∨ GoesOn job s := by
  unfold Does Fails GoesOn
  rcases ending job s with - | ⟨e | a, s'⟩
  · exact .inr (.inr rfl)
  · exact .inr (.inl ⟨e, s', rfl⟩)
  · exact .inl ⟨a, s', rfl⟩

theorem goesOn_iff :
    GoesOn job s ↔ (∀ a s', ¬ Does job s a s') ∧ ∀ e s', ¬ Fails job s e s' := by
  refine ⟨fun goesOn => ⟨fun _ _ => goesOn.not_does, fun _ _ => goesOn.not_fails⟩, ?_⟩
  rintro ⟨undone, unfailed⟩
  rcases done_or_failed_or_goesOn job s with ⟨a, s', does⟩ | ⟨e, s', fails⟩ | goesOn
  · exact absurd does (undone a s')
  · exact absurd fails (unfailed e s')
  · exact goesOn

@[simp] theorem goesOn_pure : ¬ GoesOn (pure a : ExceptT ε (StateT σ Option) α) s := by
  rintro ⟨⟩

@[simp] theorem goesOn_throw : ¬ GoesOn (throw e : ExceptT ε (StateT σ Option) α) s := by
  rintro ⟨⟩

@[simp] theorem goesOn_get : ¬ GoesOn (get : ExceptT ε (StateT σ Option) σ) s := by
  rintro ⟨⟩

@[simp] theorem goesOn_modify {f : σ → σ} :
    ¬ GoesOn (modify f : ExceptT ε (StateT σ Option) PUnit) s := by
  rintro ⟨⟩

/-- Of two jobs, the first one goes on, or it does its work and the second one goes on. -/
@[simp] theorem goesOn_bind {next : α → ExceptT ε (StateT σ Option) β} :
    GoesOn (job >>= next) s ↔ GoesOn job s ∨ ∃ a t, Does job s a t ∧ GoesOn (next a) t := by
  unfold GoesOn Does
  rw [ending_bind]
  rcases ending job s with - | ⟨e | a, t⟩ <;> simp [and_assoc]

@[simp] theorem goesOn_map {g : α → β} : GoesOn (g <$> job) s ↔ GoesOn job s := by
  rw [map_eq_pure_bind, goesOn_bind]
  simp

theorem GoesOn.bind {next : α → ExceptT ε (StateT σ Option) β} (first : GoesOn job s) :
    GoesOn (job >>= next) s :=
  goesOn_bind.mpr (.inl first)

theorem Does.bind_goesOn {next : α → ExceptT ε (StateT σ Option) β} {t : σ} (first : Does job s a t)
    (later : GoesOn (next a) t) : GoesOn (job >>= next) s :=
  first.ending_bind.trans later

@[simp] theorem goesOn_tryCatch {handler : ε → ExceptT ε (StateT σ Option) α} :
    GoesOn (tryCatch job handler) s ↔
      GoesOn job s ∨ ∃ e t, Fails job s e t ∧ GoesOn (handler e) t := by
  unfold GoesOn Fails
  rw [ending_tryCatch]
  rcases ending job s with - | ⟨e | a, t⟩ <;> simp [and_assoc]

@[simp] theorem goesOn_during {action : Action} :
    GoesOn (work.during action) s ↔ GoesOn work s := by
  unfold GoesOn
  rw [ending_during]
  rcases ending work s with - | result <;> simp

@[simp] theorem goesOn_within {part : σ → τ} {put : τ → σ → σ} {inner : Job Option τ α} :
    GoesOn (inner.within part put) s ↔ GoesOn inner (part s) := by
  simp only [goesOn_iff, does_within, fails_within]
  grind

@[simp] theorem goesOn_sure {certain : Job Id σ α} : ¬ GoesOn certain.sure s := by
  rintro ⟨⟩

@[simp] theorem goesOn_demand {cause : ε → Cause} {x : Except ε α} :
    ¬ GoesOn (demand cause x : Job Option σ α) s := by
  cases x <;> rintro ⟨⟩

@[simp] theorem goesOn_await {cause : ε → Cause} {x : Option (Except ε α)} :
    GoesOn (await cause x : Job Option σ α) s ↔ x = none := by
  unfold GoesOn
  rw [ending_await]
  rcases x with - | e | a <;> simp [demand, Job.fail, ending_pure, ending_throw]

/-- A job that is run for each of several things goes on for the first for which it does not come to
an end. -/
theorem exists_of_goesOn_forM {τ : Type} {list : List τ}
    {work : τ → ExceptT ε (StateT σ Option) PUnit} (goesOn : GoesOn (list.forM work) s) :
    ∃ before x after t, list = before ++ x :: after ∧
      Does (before.forM work) s .unit t ∧ GoesOn (work x) t := by
  induction list generalizing s with
  | nil => exact absurd goesOn goesOn_pure
  | cons x rest ih =>
    rcases goesOn_bind.mp goesOn with first | ⟨_, t, first, later⟩
    · exact ⟨[], x, rest, s, rfl, does_pure.mpr ⟨rfl, rfl⟩, first⟩
    · obtain ⟨before, y, after, u, rfl, done, forever⟩ := ih later
      exact ⟨x :: before, y, after, u, rfl, first.bind done, forever⟩

/-- Several things are done up to the first for which the job goes on for ever. -/
theorem GoesOn.forM {τ : Type} {before after : List τ} {x : τ} {t : σ}
    {work : τ → ExceptT ε (StateT σ Option) PUnit} (done : Does (before.forM work) s .unit t)
    (forever : GoesOn (work x) t) : GoesOn ((before ++ x :: after).forM work) s := by
  induction before generalizing s with
  | nil =>
    obtain ⟨-, rfl⟩ := does_pure.mp done
    exact forever.bind
  | cons y before ih =>
    obtain ⟨_, u, first, later⟩ := does_bind.mp done
    exact first.bind_goesOn (ih later)

end GoesOn

end ClassNaming
