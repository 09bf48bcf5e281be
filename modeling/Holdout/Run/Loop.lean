import Holdout.Run.Outcome

/-!
# Runs

A run takes transitions from the start until the limits, the halted state or a fault ends it, and
shows every configuration it comes to to an observer.  A run need not end, so it is followed for at
most `patience` configurations; `none` means that it had not ended by then.  Unless another clock is
given, the clock of a run stands still.

* `Machine.follow`   from any configuration, with an observer;
* `Machine.observe`  from the start, with an observer;
* `Machine.run`      the outcome alone.
-/

namespace Holdout

namespace Machine

/-- follows a run from a configuration, collecting what the observer makes of each one it comes
to -/
def follow {σ : Type} (m : Machine) (l : Limits) (clock : Clock) (observer : σ → Config → σ) :
    (patience : Nat) → σ → Config → Option (Outcome × σ)
  | 0, _, _ => none
  | patience + 1, seen, c =>
    match l.verdict? (clock c.steps) c with
    | some outcome => some (outcome, seen)
    | none =>
      match m.move c with
      | .error fault => some (.failed fault, seen)
      | .ok next => follow m l clock observer patience (observer seen next) next

def observe {σ : Type} (m : Machine) (l : Limits) (observer : σ → Config → σ) (patience : Nat)
    (first : σ) (clock : Clock := Clock.stopped) : Option (Outcome × σ) :=
  m.follow l clock observer patience first (Config.start m)

def run (m : Machine) (l : Limits) (patience : Nat) (clock : Clock := Clock.stopped) :
    Option Outcome :=
  (m.observe l (fun seen _ => seen) patience () clock).map Prod.fst

variable {σ : Type} (m : Machine) (l : Limits) (clock : Clock) (observer : σ → Config → σ)

theorem follow_of_verdict {c : Config} {outcome : Outcome}
    (h : l.verdict? (clock c.steps) c = some outcome) (patience : Nat) (seen : σ) :
    m.follow l clock observer (patience + 1) seen c = some (outcome, seen) := by
  simp [follow, h]

theorem follow_of_error {c : Config} {fault : Fault} (hv : l.verdict? (clock c.steps) c = none)
    (h : m.move c = .error fault) (patience : Nat) (seen : σ) :
    m.follow l clock observer (patience + 1) seen c = some (.failed fault, seen) := by
  simp [follow, hv, h]

theorem follow_of_ok {c next : Config} (hv : l.verdict? (clock c.steps) c = none)
    (h : m.move c = .ok next) (patience : Nat) (seen : σ) :
    m.follow l clock observer (patience + 1) seen c =
      m.follow l clock observer patience (observer seen next) next := by
  simp [follow, hv, h]

end Machine

end Holdout
