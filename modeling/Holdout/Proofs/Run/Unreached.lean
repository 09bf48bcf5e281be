import Holdout.Proofs.Reach
import Holdout.Proofs.Run.Simulation

/-!
# Rows that no run looks at

A run stays in the states that the search of the table finds, until it halts or comes to a state
without a row.  So it looks at no other row, and two machines that agree on these rows run alike.

* `Machine.finds_after`     the state of a run, if it has a row, is one of those found;
* `AgreeOnReached`          two machines with the same numbers, the same blank and the same rows of
                            the states that the search of the first one finds;
* `AgreeOnReached.simulates`   they come to the same configurations, in states that are found;
* `RunAlike`, `unreached_rows_never_matter`   so nothing can tell their runs apart.
-/

namespace Holdout

theorem Machine.finds_after (m : Machine) (k : Nat) : m.table.Finds (m.after k).state :=
  after_induction (P := fun c => m.table.Finds c.state) m.table.finds_startState
    (fun _ _ hc ht => hc.of_get? ht) k

/-! ## two machines -/

/-- two machines with the same numbers of states and symbols and the same blank, whose tables have
the same rows wherever the search of the first one comes to -/
structure AgreeOnReached (m m' : Machine) : Prop where
  states_eq : m.states = m'.states
  symbols_eq : m.symbols = m'.symbols
  allTape_eq : m.allTape = m'.allTape
  row?_eq : ∀ state ∈ m.table.reached, m.table.row? state = m'.table.row? state

namespace AgreeOnReached

variable {m m' : Machine} (h : AgreeOnReached m m')
include h

theorem start_eq : Config.start m = Config.start m' := by
  rw [Config.start, Config.start, h.allTape_eq]

theorem hasRow_eq (state : Nat) : m.table.hasRow state = m'.table.hasRow state := by
  have hstates : m.table.states = m'.table.states := h.states_eq
  rw [Table.hasRow, Table.hasRow, hstates]

theorem get?_eq {state : Nat} (hstate : m.table.Finds state) (symbol : Symbol) :
    m.table.get? state symbol = m'.table.get? state symbol := by
  have hrow : m.table.row? state = m'.table.row? state := by
    by_cases hhas : m.table.hasRow state = true
    · exact h.row?_eq state (hstate hhas)
    · have hhas' : ¬ m'.table.hasRow state = true := by
        rw [← h.hasRow_eq]
        exact hhas
      rw [Table.row?, Table.row?, if_neg hhas, if_neg hhas']
  rw [Table.get?_eq_bind_row?, Table.get?_eq_bind_row?, hrow]

/-! ## one step -/

theorem move_eq {c : Config} (hc : m.table.Finds c.state) : m.move c = m'.move c := by
  rw [Machine.move, Machine.move, Machine.faultAt, Machine.faultAt, h.get?_eq hc, h.states_eq,
    h.symbols_eq]

/-- both machines come to the same configurations, and only to states that are found -/
theorem simulates : Simulates m m' fun c c' => c' = c ∧ m.table.Finds c.state where
  start := ⟨h.start_eq.symm, m.table.finds_startState⟩
  state_eq := by
    rintro _ c ⟨rfl, _⟩
    rfl
  steps_eq := by
    rintro _ c ⟨rfl, _⟩
    rfl
  visited_eq := by
    rintro _ c ⟨rfl, _⟩
    rfl
  score_eq := by
    rintro _ c ⟨rfl, _⟩
    rfl
  move := by
    rintro _ c ⟨rfl, hc⟩
    rw [← h.move_eq hc]
    cases hm : m.move c with
    | ok next =>
      obtain ⟨t, ht, rfl⟩ := Machine.step_eq_moved_iff.mp (Machine.move_eq_ok_iff.mp hm)
      exact .inl ⟨_, _, rfl, rfl, rfl, hc.of_get? ht⟩
    | error fault => exact .inr ⟨fault, rfl, rfl⟩

end AgreeOnReached

/-! ## nothing tells them apart -/

/-- two machines come to the same configurations and find the same there, and under all limits their
runs have the same outcomes and show the same to every observer, on any two clocks on which the
budget of time runs out alike -/
structure RunAlike (m m' : Machine) : Prop where
  after_eq : ∀ k, m.after k = m'.after k
  step_eq : ∀ k, m.step (m.after k) = m'.step (m'.after k)
  run_eq : ∀ (l : Limits) (patience : Nat) (clock clock' : Clock),
    (∀ k, l.timeIsUp (clock k) = l.timeIsUp (clock' k)) →
      m.run l patience clock = m'.run l patience clock'
  observe_eq : ∀ {σ : Type} (observer : σ → Config → σ) (first : σ) (l : Limits) (patience : Nat)
    (clock clock' : Clock), (∀ k, l.timeIsUp (clock k) = l.timeIsUp (clock' k)) →
      m.observe l observer patience first clock = m'.observe l observer patience first clock'
  trace_eq : ∀ (l : Limits) (most patience : Nat) (clock clock' : Clock),
    (∀ k, l.timeIsUp (clock k) = l.timeIsUp (clock' k)) →
      m.trace l most patience clock = m'.trace l most patience clock'

theorem AgreeOnReached.runAlike {m m' : Machine} (h : AgreeOnReached m m') : RunAlike m m' where
  after_eq := fun k => (h.simulates.after k).1.symm
  step_eq := by
    intro k
    rcases h.simulates.step_cases (h.simulates.after k) with
      ⟨next, _, hs, hs', rfl, _⟩ | ⟨hs, hs'⟩ | ⟨fault, hs, hs'⟩
    · rw [hs, hs']
    · rw [hs, hs']
    · rw [hs, hs']
  run_eq := fun _ patience _ _ hclock => (h.simulates.run_eq hclock patience).symm
  observe_eq := by
    intro σ observer first l patience clock clock' hclock
    refine (h.simulates.observe_eq hclock ?_ patience first).symm
    rintro seen _ c ⟨rfl, _⟩
    rfl
  trace_eq := by
    intro l most patience clock clock' hclock
    have htrace := h.simulates.trace_eq (f := id) hclock (fun _ _ hc => by rw [hc.1]; rfl)
      most patience
    rw [htrace]
    simp

/-- **Rows of states that the search does not find never matter.**  Change them in any way: no run
can tell, and neither the old machine nor the new one ever comes to one of these states. -/
theorem unreached_rows_never_matter {m m' : Machine} (h : AgreeOnReached m m') :
    RunAlike m m' ∧ ∀ k, (m.after k).state ∉ m.table.unreached ∧
      (m'.after k).state ∉ m.table.unreached := by
  refine ⟨h.runAlike, fun k => ?_⟩
  obtain ⟨heq, hfinds⟩ := h.simulates.after k
  rw [heq]
  exact ⟨hfinds.not_mem_unreached, hfinds.not_mem_unreached⟩

/-- a machine whose third state no transition leads to, with one transition for all of its row -/
def loner (t : Transition) : Machine :=
  ⟨"", Table.ofList 2 [⟨1, .right, 2⟩, ⟨0, .right, 0⟩, ⟨1, .left, 1⟩, ⟨1, .right, 1⟩, t, t], 0,
    Nat.two_pos⟩

theorem unreached_rows_never_matter_loner :
    AgreeOnReached (loner ⟨1, .right, 3⟩) (loner ⟨7, .left, 9⟩) ∧
      (loner ⟨1, .right, 3⟩).table.row? 3 ≠ (loner ⟨7, .left, 9⟩).table.row? 3 ∧
      RunAlike (loner ⟨1, .right, 3⟩) (loner ⟨7, .left, 9⟩) ∧
      ∀ k, ((loner ⟨1, .right, 3⟩).after k).state ∉ (loner ⟨1, .right, 3⟩).table.unreached ∧
        ((loner ⟨7, .left, 9⟩).after k).state ∉ (loner ⟨1, .right, 3⟩).table.unreached := by
  have h : AgreeOnReached (loner ⟨1, .right, 3⟩) (loner ⟨7, .left, 9⟩) := by
    have hreached : (loner ⟨1, .right, 3⟩).table.reached = [2, 1] := by cbv
    refine ⟨rfl, rfl, rfl, ?_⟩
    rw [hreached]
    decide
  exact ⟨h, by decide, unreached_rows_never_matter h⟩

end Holdout
