import Holdout.Run.Loop

/-!
# Traces

A trace keeps the first configurations that a run comes to, as snapshots of the tape.

* `Snapshot.ofConfig`   the cells, the head and the number of cells of a configuration;
* `Trace.keep`          the observer: one snapshot more, until there are enough;
* `Machine.trace`       the outcome of a run and its first snapshots.
-/

namespace Holdout

structure Snapshot where
  tape : List Symbol
  head : Nat
  visited : Nat
  deriving DecidableEq

def Snapshot.ofConfig (c : Config) : Snapshot := ⟨c.tape.cells, c.tape.head, c.tape.visited⟩

/-- the snapshots kept so far, oldest first -/
abbrev Trace := Array Snapshot

def Trace.isFull (most : Nat) (kept : Trace) : Bool := most ≤ kept.size

def Trace.keep (most : Nat) (kept : Trace) (c : Config) : Trace :=
  if Trace.isFull most kept then kept else kept.push (Snapshot.ofConfig c)

/-- the outcome of a run and the first snapshots, at most `most` of them -/
def Machine.trace (m : Machine) (l : Limits) (most patience : Nat)
    (clock : Clock := Clock.stopped) : Option (Outcome × List Snapshot) :=
  (m.observe l (Trace.keep most) patience #[] clock).map fun (outcome, kept) =>
    (outcome, kept.toList)

theorem Trace.size_keep (most : Nat) (kept : Trace) (c : Config) :
    (Trace.keep most kept c).size = if most ≤ kept.size then kept.size else kept.size + 1 := by
  unfold Trace.keep Trace.isFull
  by_cases h : most ≤ kept.size <;> simp [h]

theorem Trace.keep_of_isFull {most : Nat} {kept : Trace} (h : Trace.isFull most kept = true)
    (c : Config) : Trace.keep most kept c = kept := by
  simp [Trace.keep, h]

end Holdout
