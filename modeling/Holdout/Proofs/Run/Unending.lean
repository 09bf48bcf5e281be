import Holdout.Proofs.Run.Repeats

/-!
# Machines that never halt

A machine that neither halts nor fails is stopped by its limits alone: by the space ceiling if its
tape grows without bound, and by the budget of steps if it keeps to the space.

* `Machine.Unending`          no configuration of the run is halted or stuck;
* `Unending.exists_limit`     such a run ends by a limit, if it ends;
* `Unending.endsIn_space`, `Unending.endsIn_steps`   by which one;
* `after_roamer`              the translated cycler of the catalog after its first seven
                              transitions: one cell more with each of them;
* `pendulum_returns`          the cycler of the catalog goes round in four transitions;
* `catalog_never_halts`       so neither of them ever halts, whatever the limits.
-/

namespace Holdout

namespace Machine

/-! ## runs that only a limit ends -/

/-- the machine never comes to a halted or stuck configuration -/
structure Unending (m : Machine) : Prop where
  haltTime_eq : m.haltTime = ⊤
  faultTime_eq : m.faultTime = ⊤

namespace Unending

variable {m : Machine} (h : m.Unending)
include h

theorem exists_limit {l : Limits} {clock : Clock} {outcome : Outcome}
    (hends : m.EndsIn l clock outcome) : ∃ limit, outcome = .exceeded limit := by
  obtain ⟨n, hn⟩ := endsIn_iff.mp hends
  cases stop?_eq_some_iff.mp hn.1 with
  | space => exact ⟨.space, rfl⟩
  | time => exact ⟨.time, rfl⟩
  | steps => exact ⟨.steps, rfl⟩
  | halted _ hstate => exact absurd hstate (firstTime_eq_top_iff.mp h.haltTime_eq n)
  | fault _ hstuck => exact absurd ⟨_, hstuck⟩ (firstTime_eq_top_iff.mp h.faultTime_eq n)

theorem endsIn_space (hgrows : ∀ bound, ∃ k, bound < (m.after k).tape.visited) (space : Nat)
    (clock : Clock) : m.EndsIn ⟨space, none, none⟩ clock (.exceeded .space) := by
  obtain ⟨k, hk⟩ := hgrows space
  have hle : m.overflowTime space ≤ k := firstTime_le hk
  refine endsIn_space_iff.mpr ⟨(hle.trans_lt (ENat.natCast_lt_top k)).ne, ?_, ?_, le_top⟩
  · rw [h.haltTime_eq]
    exact le_top
  · rw [h.faultTime_eq]
    exact le_top

theorem endsIn_steps {space : Nat} (hkeeps : ∀ k, (m.after k).tape.visited ≤ space)
    (budget : Nat) (clock : Clock) :
    m.EndsIn ⟨space, none, some budget⟩ clock (.exceeded .steps) := by
  refine endsIn_steps_iff.mpr ⟨?_, lt_overflowTime_iff.mpr (hkeeps budget), ?_⟩
  · rw [h.haltTime_eq]
    exact ENat.natCast_lt_top budget
  · rw [h.faultTime_eq]
    exact le_top

end Unending

/-- a halted or stuck configuration would stay as it is -/
theorem unending_of_pass_ne {m : Machine} (h : ∀ k, m.pass (m.after k) ≠ m.after k) :
    m.Unending where
  haltTime_eq := by
    refine firstTime_eq_top_iff.mpr fun k hk => h k ?_
    exact pass_of_halted (step_eq_halted_iff.mpr hk)
  faultTime_eq := by
    refine firstTime_eq_top_iff.mpr fun k hk => h k ?_
    obtain ⟨fault, hstuck⟩ := hk
    exact pass_of_stuck hstuck

/-- a run that comes to one configuration twice keeps to its space and never halts -/
theorem Returns.unending {m : Machine} {space i k : Nat} (h : m.Returns space i k) :
    m.Unending ∧ ∀ n, (m.after n).tape.visited ≤ space := by
  obtain ⟨hspace, hhalt, hfault, _⟩ := neverEnds_untimed_iff.mp (h.neverEnds Clock.stopped)
  refine ⟨⟨hhalt, hfault⟩, fun n => lt_overflowTime_iff.mp ?_⟩
  rw [hspace]
  exact ENat.natCast_lt_top n

end Machine

/-! ## a machine that moves on for ever -/

/-- after a few turns it goes left over blank cells and writes ones -/
def roamer : Machine :=
  ⟨"1RB---_1LB0RB", Table.ofList 2 [⟨1, .right, 2⟩, Transition.undefined, ⟨1, .left, 2⟩,
    ⟨0, .right, 2⟩], 0, Nat.two_pos⟩

/-- the head on a blank cell at the left end, and ones to the right of it -/
def roaming (n : Nat) : Config where
  state := 2
  tape := ⟨[], 0, List.replicate (n + 3) 1, 0, n + 4, by simp; omega⟩
  steps := n + 7

theorem pass_roaming (n : Nat) : roamer.pass (roaming n) = roaming (n + 1) := by
  have hget : roamer.table.get? (roaming n).state (roaming n).tape.read =
      some ⟨1, .left, 2⟩ := by rfl
  rw [Machine.pass_of_moved (Machine.step_eq_moved_iff.mpr ⟨_, hget, rfl⟩)]
  rfl

theorem after_roamer (n : Nat) : roamer.after (n + 7) = roaming n := by
  induction n with
  | zero => decide
  | succ n ih =>
    rw [show n + 1 + 7 = n + 7 + 1 by omega, Machine.after_succ, ih, pass_roaming]

theorem roamer_unending : roamer.Unending := by
  refine Machine.unending_of_pass_ne fun k hfixed => ?_
  have hlater := Machine.after_of_fixed hfixed (Nat.le_add_right k 7)
  rw [← hlater, after_roamer, pass_roaming] at hfixed
  exact absurd (congrArg Config.steps hfixed) (Nat.succ_ne_self (k + 7))

theorem roamer_grows (bound : Nat) : ∃ k, bound < (roamer.after k).tape.visited := by
  refine ⟨bound + 7, ?_⟩
  rw [after_roamer]
  exact Nat.lt_add_of_pos_right (by decide)

/-! ## the catalog -/

/-- from its second configuration on the cycler goes round in four transitions -/
theorem pendulum_returns : pendulum.Returns 2 1 5 where
  lt := by decide
  takes := by
    intro i hi
    interval_cases i <;> exact ⟨_, rfl⟩
  visited_le := by decide
  scene_eq := by decide

/-- **The last two machines of the catalog never halt.**  Neither of them halts or fails under any
limits.  The tape of the translated cycler grows without bound, so every space ceiling stops it if
nothing else may; the cycler keeps to two cells, so a ceiling of two or more cells never stops it
and every budget of steps does. -/
theorem catalog_never_halts : ∃ m₁ m₂,
    Catalog.decode "translated-cycler" = .ok m₁ ∧ Catalog.decode "cycler" = .ok m₂ ∧
    (∀ l clock outcome, m₁.EndsIn l clock outcome → ∃ limit, outcome = .exceeded limit) ∧
    (∀ l clock outcome, m₂.EndsIn l clock outcome → ∃ limit, outcome = .exceeded limit) ∧
    (∀ bound, ∃ k, bound < (m₁.after k).tape.visited) ∧
    (∀ space clock, m₁.EndsIn ⟨space, none, none⟩ clock (.exceeded .space)) ∧
    (∀ k, (m₂.after k).tape.visited ≤ 2) ∧
    ∀ space budget clock, 2 ≤ space →
      m₂.EndsIn ⟨space, none, some budget⟩ clock (.exceeded .steps) := by
  obtain ⟨hunending, hkeeps⟩ := pendulum_returns.unending
  refine ⟨roamer, pendulum, by decide, by decide, fun _ _ _ => roamer_unending.exists_limit,
    fun _ _ _ => hunending.exists_limit, roamer_grows, roamer_unending.endsIn_space roamer_grows,
    hkeeps, ?_⟩
  intro space budget clock hspace
  exact hunending.endsIn_steps (fun k => (hkeeps k).trans hspace) budget clock

end Holdout
