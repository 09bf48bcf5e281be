import Holdout.Proofs.Run.Steps
import Holdout.Run.Trace

/-!
# Where a run ends

A run goes through the configurations `Machine.after` and ends at the first one that stops it.

* `Machine.stop?`             what a configuration makes of a run: an outcome, or `none` if it goes
                              on;
* `Machine.EndsAt`            the run ends with an outcome after a number of transitions;
* `Machine.StillRuns`         the run has not ended before a number of transitions;
* `Machine.observe_eq_some_iff`   patience aside, a run has the outcome of the place where it ends,
                              and its observer has seen every configuration up to there;
* `Machine.EndsIn`, `Machine.NeverEnds`   the same without patience.
-/

namespace Holdout

namespace Machine

variable {m : Machine} {l : Limits} {clock : Clock} {c : Config} {passed : Nat}

/-- how a run ends in a configuration, if it does: by the verdict of its limits or by a fault -/
def stop? (m : Machine) (l : Limits) (passed : Nat) (c : Config) : Option Outcome :=
  match l.verdict? passed c with
  | some outcome => some outcome
  | none =>
    match m.move c with
    | .error fault => some (.failed fault)
    | .ok _ => none

/-- no limit and no halted state ends a run before its next step -/
structure GoesOn (l : Limits) (passed : Nat) (c : Config) : Prop where
  space : c.tape.visited ≤ l.space
  state : c.state ≠ haltState
  time : l.timeIsUp passed = false
  steps : l.stepsAreUp c.steps = false

/-- the five ways to end, each with all that was looked at before it -/
inductive Stops (m : Machine) (l : Limits) (passed : Nat) (c : Config) : Outcome → Prop
  | space (h : l.space < c.tape.visited) : Stops m l passed c (.exceeded .space)
  | halted (hspace : c.tape.visited ≤ l.space) (h : c.state = haltState) :
    Stops m l passed c (.halted c.tape.score c.steps)
  | time (hspace : c.tape.visited ≤ l.space) (hstate : c.state ≠ haltState)
    (h : l.timeIsUp passed = true) : Stops m l passed c (.exceeded .time)
  | steps (hspace : c.tape.visited ≤ l.space) (hstate : c.state ≠ haltState)
    (htime : l.timeIsUp passed = false) (h : l.stepsAreUp c.steps = true) :
    Stops m l passed c (.exceeded .steps)
  | fault {fault : Fault} (hgo : GoesOn l passed c) (h : m.step c = .stuck fault) :
    Stops m l passed c (.failed fault)

theorem verdict?_of_goesOn (h : GoesOn l passed c) : l.verdict? passed c = none := by
  have hhalted := Config.isHalted_eq_false_iff.mpr h.state
  simp [Limits.verdict?, Nat.not_lt.mpr h.space, hhalted, h.time, h.steps]

theorem stops_or_goesOn (m : Machine) (l : Limits) (passed : Nat) (c : Config) :
    (∃ outcome, l.verdict? passed c = some outcome ∧ Stops m l passed c outcome) ∨
      GoesOn l passed c := by
  have hstate := Config.isHalted_iff (c := c)
  unfold Limits.verdict?
  rcases Nat.lt_or_ge l.space c.tape.visited with hspace | hspace
  · exact .inl ⟨_, if_pos hspace, .space hspace⟩
  rw [if_neg (Nat.not_lt.mpr hspace)]
  by_cases hhalted : c.isHalted = true
  · exact .inl ⟨_, if_pos hhalted, .halted hspace (hstate.mp hhalted)⟩
  have h0 : c.state ≠ haltState := fun h => hhalted (hstate.mpr h)
  rw [if_neg hhalted]
  cases htime : l.timeIsUp passed with
  | true => exact .inl ⟨_, rfl, .time hspace h0 htime⟩
  | false =>
    cases hsteps : l.stepsAreUp c.steps with
    | true => exact .inl ⟨_, rfl, .steps hspace h0 htime hsteps⟩
    | false => exact .inr ⟨hspace, h0, htime, hsteps⟩

/-- a run goes on exactly where its next step takes a transition -/
theorem stop?_eq_none_iff :
    m.stop? l passed c = none ↔ GoesOn l passed c ∧ ∃ next, m.step c = .moved next := by
  unfold stop?
  rcases stops_or_goesOn m l passed c with ⟨outcome, hv, hstops⟩ | hgo
  · rw [hv]
    simp only [reduceCtorEq, false_iff]
    rintro ⟨hgo, _⟩
    rw [verdict?_of_goesOn hgo] at hv
    cases hv
  · rw [verdict?_of_goesOn hgo]
    simp only [hgo, true_and, ← move_eq_ok_iff]
    cases m.move c <;> simp

theorem stop?_eq_some_iff {outcome : Outcome} :
    m.stop? l passed c = some outcome ↔ Stops m l passed c outcome := by
  constructor
  · intro h
    unfold stop? at h
    rcases stops_or_goesOn m l passed c with ⟨o, hv, hstops⟩ | hgo
    · rw [hv] at h
      cases h
      exact hstops
    · rw [verdict?_of_goesOn hgo] at h
      cases hm : m.move c with
      | ok next =>
        rw [hm] at h
        cases h
      | error fault =>
        rw [hm] at h
        cases h
        exact .fault hgo ((move_eq_error_iff hgo.state).mp hm)
  · intro h
    unfold stop?
    cases h with
    | space h => simp [Limits.verdict?, h]
    | halted hspace h =>
      simp [Limits.verdict?, Nat.not_lt.mpr hspace, Config.isHalted_iff.mpr h]
    | time hspace hstate h =>
      have hhalted := Config.isHalted_eq_false_iff.mpr hstate
      simp [Limits.verdict?, Nat.not_lt.mpr hspace, hhalted, h]
    | steps hspace hstate htime h =>
      have hhalted := Config.isHalted_eq_false_iff.mpr hstate
      simp [Limits.verdict?, Nat.not_lt.mpr hspace, hhalted, htime, h]
    | fault hgo h => rw [verdict?_of_goesOn hgo, (move_eq_error_iff hgo.state).mpr h]

/-! ## the place where a run ends -/

/-- what the configuration after `k` steps makes of a run -/
def stopAt (m : Machine) (l : Limits) (clock : Clock) (k : Nat) : Option Outcome :=
  m.stop? l (clock (m.after k).steps) (m.after k)

/-- a run ends with an outcome after a number of transitions -/
def EndsAt (m : Machine) (l : Limits) (clock : Clock) (n : Nat) (outcome : Outcome) : Prop :=
  m.stopAt l clock n = some outcome ∧ ∀ i < n, m.stopAt l clock i = none

/-- a run has not ended before it looks at its limits after `k` transitions -/
def StillRuns (m : Machine) (l : Limits) (clock : Clock) (k : Nat) : Prop :=
  ∀ i < k, m.stopAt l clock i = none

theorem StillRuns.of_le {k n : Nat} (h : m.StillRuns l clock n) (hle : k ≤ n) :
    m.StillRuns l clock k := by
  intro i hi
  exact h i (Nat.lt_of_lt_of_le hi hle)

theorem StillRuns.goesOn {k n : Nat} (h : m.StillRuns l clock n) (hlt : k < n) :
    GoesOn l (clock (m.after k).steps) (m.after k) :=
  (stop?_eq_none_iff.mp (h k hlt)).1

theorem StillRuns.takes {k : Nat} (h : m.StillRuns l clock k) : m.Takes k := by
  intro i hi
  exact (stop?_eq_none_iff.mp (h i hi)).2

theorem StillRuns.steps_eq {k : Nat} (h : m.StillRuns l clock k) : (m.after k).steps = k :=
  steps_after h.takes

/-- a run that has not ended has not gone past its budget -/
theorem StillRuns.le_budget {k budget : Nat} (h : m.StillRuns l clock k)
    (hbudget : l.steps = some budget) : k ≤ budget := by
  cases k with
  | zero => exact Nat.zero_le budget
  | succ k =>
    have hsteps := (h.goesOn (Nat.lt_succ_self k)).steps
    rw [(h.of_le (Nat.le_succ k)).steps_eq, Limits.stepsAreUp, hbudget, Option.any_some,
      decide_eq_false_iff_not, Nat.not_le] at hsteps
    exact hsteps

theorem EndsAt.stillRuns {n : Nat} {outcome : Outcome} (h : m.EndsAt l clock n outcome) :
    m.StillRuns l clock n := h.2

theorem EndsAt.takes {n : Nat} {outcome : Outcome} (h : m.EndsAt l clock n outcome) :
    m.Takes n :=
  h.stillRuns.takes

theorem EndsAt.unique {n n' : Nat} {o o' : Outcome} (h : m.EndsAt l clock n o)
    (h' : m.EndsAt l clock n' o') : n = n' ∧ o = o' := by
  obtain ⟨hn, hlt⟩ := h
  obtain ⟨hn', hlt'⟩ := h'
  rcases Nat.lt_trichotomy n n' with hlt'' | rfl | hlt''
  · rw [hlt' n hlt''] at hn
    cases hn
  · rw [hn] at hn'
    cases hn'
    exact ⟨rfl, rfl⟩
  · rw [hlt n' hlt''] at hn'
    cases hn'

/-- a run that halts reports the score and the number of its transitions, within its space -/
theorem EndsAt.of_halted {n score steps : Nat} (h : m.EndsAt l clock n (.halted score steps)) :
    (m.after n).state = haltState ∧ (m.after n).tape.visited ≤ l.space ∧
      score = (m.after n).tape.score ∧ steps = n := by
  have hcount := h.stillRuns.steps_eq
  cases stop?_eq_some_iff.mp h.1 with
  | halted hspace hstate => exact ⟨hstate, hspace, rfl, hcount⟩

/-- a run does not halt where it starts -/
theorem EndsAt.exists_succ_of_halted {n score steps : Nat}
    (h : m.EndsAt l clock n (.halted score steps)) : ∃ k, n = k + 1 := by
  cases n with
  | zero => cases h.of_halted.1
  | succ k => exact ⟨k, rfl⟩

/-- where some configuration stops a run, the run ends there or before -/
theorem exists_endsAt_of_stopAt {n : Nat} {outcome : Outcome}
    (h : m.stopAt l clock n = some outcome) : ∃ k ≤ n, ∃ o, m.EndsAt l clock k o := by
  induction n using Nat.strongRecOn generalizing outcome with
  | ind n ih =>
    by_cases hall : ∀ i < n, m.stopAt l clock i = none
    · exact ⟨n, Nat.le_refl n, outcome, h, hall⟩
    · obtain ⟨i, hi⟩ := Classical.not_forall.mp hall
      obtain ⟨hlt, hstop⟩ := Classical.not_imp.mp hi
      obtain ⟨o, ho⟩ := Option.ne_none_iff_exists'.mp hstop
      obtain ⟨k, hk, hends⟩ := ih i hlt ho
      exact ⟨k, Nat.le_trans hk (Nat.le_of_lt hlt), hends⟩

theorem exists_endsAt_of_not_stillRuns {k : Nat} (h : ¬ m.StillRuns l clock k) :
    ∃ n < k, ∃ outcome, m.EndsAt l clock n outcome := by
  obtain ⟨i, hi⟩ := Classical.not_forall.mp h
  obtain ⟨hlt, hstop⟩ := Classical.not_imp.mp hi
  obtain ⟨o, ho⟩ := Option.ne_none_iff_exists'.mp hstop
  obtain ⟨n, hn, hends⟩ := exists_endsAt_of_stopAt ho
  exact ⟨n, Nat.lt_of_le_of_lt hn hlt, hends⟩

/-- a run whose clock uses up the budget of time at some look has ended by then -/
theorem exists_endsAt_of_timeIsUp {k : Nat} (h : l.timeIsUp (clock k) = true) :
    ∃ n, ∃ outcome, m.EndsAt l clock n outcome := by
  by_cases hstill : m.StillRuns l clock (k + 1)
  · have htime := (hstill.goesOn (Nat.lt_succ_self k)).time
    rw [(hstill.of_le (Nat.le_succ k)).steps_eq, h] at htime
    cases htime
  · obtain ⟨n, _, hends⟩ := exists_endsAt_of_not_stillRuns hstill
    exact ⟨n, hends⟩

section
variable {σ : Type} (observer : σ → Config → σ)

theorem follow_succ (m : Machine) (l : Limits) (clock : Clock) (patience : Nat) (seen : σ)
    (c : Config) :
    m.follow l clock observer (patience + 1) seen c =
      match m.stop? l (clock c.steps) c with
      | some outcome => some (outcome, seen)
      | none => m.follow l clock observer patience (observer seen (m.pass c)) (m.pass c) := by
  unfold stop?
  cases hv : l.verdict? (clock c.steps) c with
  | some outcome => exact follow_of_verdict m l clock observer hv patience seen
  | none =>
    cases hm : m.move c with
    | error fault => exact follow_of_error m l clock observer hv hm patience seen
    | ok next =>
      rw [follow_of_ok m l clock observer hv hm, pass_of_moved (move_eq_ok_iff.mp hm)]

/-- a run from the `k`-th configuration ends at the first one that stops it -/
theorem follow_after_eq_some_iff {patience k : Nat} {seen last : σ} {outcome : Outcome} :
    m.follow l clock observer patience seen (m.after k) = some (outcome, last) ↔
      ∃ n < patience, m.stopAt l clock (k + n) = some outcome ∧
        (∀ i < n, m.stopAt l clock (k + i) = none) ∧
        last = ((List.range' (k + 1) n).map m.after).foldl observer seen := by
  induction patience generalizing k seen with
  | zero => simp [follow]
  | succ patience ih =>
    rw [follow_succ]
    cases hk : m.stop? l (clock (m.after k).steps) (m.after k) with
    | some o =>
      constructor
      · rintro ⟨⟩
        exact ⟨0, by omega, hk, by simp, rfl⟩
      · rintro ⟨n, _, hn, hlt, rfl⟩
        -- a later end is ruled out, since the run stops right here
        have h0 : n = 0 := by
          by_contra h0
          have := hlt 0 (by omega)
          rw [Nat.add_zero, stopAt, hk] at this
          cases this
        subst h0
        rw [Nat.add_zero, stopAt, hk] at hn
        cases hn
        rfl
    | none =>
      simp only [← after_succ, ih]
      constructor
      · rintro ⟨n, hlt, hn, hnone, rfl⟩
        refine ⟨n + 1, by omega, ?_, ?_, ?_⟩
        · rw [← hn]
          congr 1
          omega
        · intro i hi
          cases i with
          | zero => exact hk
          | succ i =>
            rw [← hnone i (by omega)]
            congr 1
            omega
        · rw [List.range'_succ, List.map_cons, List.foldl_cons]
      · rintro ⟨n, hlt, hn, hnone, rfl⟩
        cases n with
        | zero =>
          rw [Nat.add_zero, stopAt, hk] at hn
          cases hn
        | succ n =>
          refine ⟨n, by omega, ?_, ?_, ?_⟩
          · rw [← hn]
            congr 1
            omega
          · intro i hi
            rw [← hnone (i + 1) (by omega)]
            congr 1
            omega
          · rw [List.range'_succ, List.map_cons, List.foldl_cons]

/-- **A run has the outcome of the place where it ends**, and its observer has seen every
configuration up to there once and in order. -/
theorem observe_eq_some_iff {patience : Nat} {first last : σ} {outcome : Outcome} :
    m.observe l observer patience first clock = some (outcome, last) ↔
      ∃ n < patience, m.EndsAt l clock n outcome ∧
        last = ((List.range' 1 n).map m.after).foldl observer first := by
  rw [observe, ← after_zero, follow_after_eq_some_iff]
  simp only [EndsAt, and_assoc, Nat.zero_add]

end

theorem run_eq_some_iff {patience : Nat} {outcome : Outcome} :
    m.run l patience clock = some outcome ↔ ∃ n < patience, m.EndsAt l clock n outcome := by
  rw [run, Option.map_eq_some_iff]
  constructor
  · rintro ⟨⟨o, last⟩, h, rfl⟩
    obtain ⟨n, hlt, hn, _⟩ := (observe_eq_some_iff _).mp h
    exact ⟨n, hlt, hn⟩
  · rintro ⟨n, hlt, hn⟩
    exact ⟨(outcome, _), (observe_eq_some_iff _).mpr ⟨n, hlt, hn, rfl⟩, rfl⟩

theorem exists_endsAt_of_trace {most patience : Nat} {outcome : Outcome} {kept : List Snapshot}
    (h : m.trace l most patience clock = some (outcome, kept)) :
    ∃ n < patience, m.EndsAt l clock n outcome := by
  rw [trace, Option.map_eq_some_iff] at h
  obtain ⟨⟨o, last⟩, h, heq⟩ := h
  cases heq
  obtain ⟨n, hlt, hn, _⟩ := (observe_eq_some_iff _).mp h
  exact ⟨n, hlt, hn⟩

/-! ## patience aside -/

/-- a run that is followed for long enough has an outcome -/
def EndsIn (m : Machine) (l : Limits) (clock : Clock) (outcome : Outcome) : Prop :=
  ∃ patience, m.run l patience clock = some outcome

/-- a run has no outcome, however long it is followed -/
def NeverEnds (m : Machine) (l : Limits) (clock : Clock) : Prop :=
  ∀ patience, m.run l patience clock = none

theorem endsIn_iff {outcome : Outcome} :
    m.EndsIn l clock outcome ↔ ∃ n, m.EndsAt l clock n outcome := by
  constructor
  · rintro ⟨patience, h⟩
    obtain ⟨n, _, hn⟩ := run_eq_some_iff.mp h
    exact ⟨n, hn⟩
  · rintro ⟨n, hn⟩
    exact ⟨n + 1, run_eq_some_iff.mpr ⟨n, by omega, hn⟩⟩

/-- a run without an end is stopped by no configuration -/
theorem neverEnds_iff : m.NeverEnds l clock ↔ ∀ n, m.stopAt l clock n = none := by
  constructor
  · intro h n
    cases hn : m.stopAt l clock n with
    | none => rfl
    | some outcome =>
      obtain ⟨k, _, o, hends⟩ := exists_endsAt_of_stopAt hn
      obtain ⟨patience, hrun⟩ := endsIn_iff.mpr ⟨k, hends⟩
      rw [h patience] at hrun
      cases hrun
  · intro h patience
    cases hrun : m.run l patience clock with
    | none => rfl
    | some outcome =>
      obtain ⟨n, _, hn, _⟩ := run_eq_some_iff.mp hrun
      rw [h n] at hn
      cases hn

end Machine

end Holdout
