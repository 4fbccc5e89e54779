import ClassNaming.Log.Event
import ClassNaming.Job

/-!
# Progress

The progress of a run is what it has counted and what events there were.

## Main Definitions

* `Progress` - counters and events
* `tell` - an event of a job
* `count` - a step of a counter
-/

namespace ClassNaming

/-- The counters of a sweep, and all events so far, the latest first. -/
structure Progress where
  tally : Tally
  events : List Event
  deriving Repr, DecidableEq

namespace Progress

/-- Nothing happened so far. -/
def start : Progress := ⟨.zero, []⟩

/-- One more event. -/
def tell (p : Progress) (e : Event) : Progress := { p with events := e :: p.events }

/-- The counters changed. -/
def count (p : Progress) (step : Tally → Tally) : Progress := { p with tally := step p.tally }

end Progress

/-- Tells an event. -/
def tell (e : Event) : Job Option Progress Unit := modify (·.tell e)

/-- Changes the counters. -/
def count (step : Tally → Tally) : Job Option Progress Unit := modify (·.count step)

end ClassNaming
