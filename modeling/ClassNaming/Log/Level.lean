/-!
# Levels of log events

Each event has a level, and a threshold says which levels are told: those at least as grave as it.

## Main Definitions

* `Level` - the levels
* `Level.passes` - whether a threshold lets a level through
* `Level.ofVerbosity` - the threshold for a number of requests for more
-/

namespace ClassNaming

/-- How grave an event is. -/
inductive Level where
  | error
  | warn
  | info
  | debug
  | trace
  deriving Repr, DecidableEq

namespace Level

/-- The levels by number: the graver, the smaller. -/
def rank : Level → Nat
  | error => 1
  | warn => 2
  | info => 3
  | debug => 4
  | trace => 5

/-- Whether a level is told where the threshold is another one. -/
def passes (threshold level : Level) : Bool := level.rank ≤ threshold.rank

/-- The name of a level. -/
def label : Level → String
  | error => "ERROR"
  | warn => "WARN"
  | info => "INFO"
  | debug => "DEBUG"
  | trace => "TRACE"

/-- The threshold after so many requests for more detail. -/
def ofVerbosity : Nat → Level
  | 0 => warn
  | 1 => info
  | 2 => debug
  | _ => trace

end Level

end ClassNaming
