import Holdout.Run.Config

/-!
# Limits and outcomes

* `Limits`          ceilings on cells, time and transitions;
* `Clock`           what a clock shows each time that a run looks at it;
* `Outcome`         how a run ends: halted, a holdout, or a fault;
* `Limits.verdict?` what the limits and the halted state say about a configuration.

A run looks at its clock once between two transitions.  Which time it finds there is not in the
hands of the machine, so the clock is given to the run; on a clock that stands still only a budget
of no time at all ever runs out.
-/

namespace Holdout

structure Span where
  secs : Nat
  nanos : Nat
  nanos_lt : nanos < 1000000000
  deriving DecidableEq

namespace Span

/-- seconds and any number of nanoseconds; whole seconds among these are carried over -/
def ofParts (secs nanos : Nat) : Span where
  secs := secs + nanos / 1000000000
  nanos := nanos % 1000000000
  nanos_lt := Nat.mod_lt _ (by decide)

def ofMillis (millis : Nat) : Span := ofParts (millis / 1000) (millis % 1000 * 1000000)

def total (s : Span) : Nat := s.secs * 1000000000 + s.nanos

end Span

/-- how many nanoseconds a run has taken when it looks at the clock after a number of
transitions -/
abbrev Clock := Nat → Nat

/-- a clock that never leaves the start of the run -/
def Clock.stopped : Clock := fun _ => 0

structure Limits where
  /-- the number of cells that a run may visit -/
  space : Nat
  /-- how long a run may take, if there is a limit -/
  time : Option Span
  /-- the number of transitions that a run may take, if there is a limit -/
  steps : Option Nat
  deriving DecidableEq

/-- ten thousand cells, one second and any number of transitions -/
def Limits.default : Limits := ⟨10000, some (Span.ofParts 1 0), none⟩

/-- the ceiling that ended a run -/
inductive Limit where
  | space
  | time
  | steps
  deriving DecidableEq

def Limit.label : Limit → String
  | .space => "space"
  | .time => "time"
  | .steps => "steps"

inductive Outcome where
  | halted (score steps : Nat)
  | exceeded (limit : Limit)
  | failed (fault : Fault)
  deriving DecidableEq

namespace Outcome

def status : Outcome → String
  | halted _ _ => "HALT"
  | exceeded _ => "HOLDOUT"
  | failed _ => "ERROR"

def isHalted : Outcome → Bool
  | halted _ _ => true
  | _ => false

/-- the run was cut off by a limit -/
def isHoldout : Outcome → Bool
  | exceeded _ => true
  | _ => false

def isFailed : Outcome → Bool
  | failed _ => true
  | _ => false

def summary : Outcome → String
  | halted score steps => "HALT score=" ++ Decimal.text score ++ " steps=" ++ Decimal.text steps
  | exceeded limit => "HOLDOUT (" ++ limit.label ++ ")"
  | failed fault => "ERROR " ++ fault.message

end Outcome

namespace Limits

/-- the time that has passed has reached the ceiling -/
def timeIsUp (l : Limits) (passed : Nat) : Bool := l.time.any fun most => most.total ≤ passed

/-- the number of transitions has reached the ceiling -/
def stepsAreUp (l : Limits) (steps : Nat) : Bool := l.steps.any fun most => most ≤ steps

/-- how a run ends in a configuration, if it does: the space ceiling is looked at first, then the
halted state, then the time and at last the number of transitions -/
def verdict? (l : Limits) (passed : Nat) (c : Config) : Option Outcome :=
  if l.space < c.tape.visited then some (.exceeded .space)
  else if c.isHalted then some (.halted c.tape.score c.steps)
  else if l.timeIsUp passed then some (.exceeded .time)
  else if l.stepsAreUp c.steps then some (.exceeded .steps)
  else none

end Limits

end Holdout
