import Holdout.Proofs.Run.Ends
import Holdout.Proofs.Tape

/-!
# The first event decides a run

Without a time limit four things can end a run: the tape outgrows the space ceiling, the machine
halts, a look-up fails, or the step budget is used up.  Each has a first time, which is `⊤` if it
never happens, and the outcome is decided by comparing the four.

* `firstTime`               the first number with a property, or `⊤`;
* `Machine.overflowTime`, `Machine.haltTime`, `Machine.faultTime`, `budgetTime`   the four times;
* `Machine.stopAt_eq_none_before_iff`   the run is still going on before a time exactly if that
                            time is at most each of the four;
* `run_decided_by_first_event`   the outcome, with all ties.
-/

namespace Holdout

/-- the first number with a property, `⊤` if there is none -/
noncomputable def firstTime (p : Nat → Prop) : ℕ∞ := ⨅ (k : Nat) (_ : p k), (k : ℕ∞)

section
variable {p : Nat → Prop} {n : Nat}

theorem le_firstTime_iff : (n : ℕ∞) ≤ firstTime p ↔ ∀ i < n, ¬ p i := by
  rw [firstTime, le_iInf₂_iff]
  constructor
  · intro h i hi hp
    have := Nat.cast_le.mp (h i hp)
    omega
  · intro h k hk
    rw [Nat.cast_le]
    by_contra hlt
    exact h k (by omega) hk

theorem firstTime_le (h : p n) : firstTime p ≤ n := iInf₂_le n h

theorem firstTime_eq_coe_iff : firstTime p = n ↔ p n ∧ ∀ i < n, ¬ p i := by
  constructor
  · intro h
    have hlt := le_firstTime_iff.mp h.ge
    refine ⟨?_, hlt⟩
    by_contra hp
    have hsucc : ((n + 1 : Nat) : ℕ∞) ≤ firstTime p := by
      rw [le_firstTime_iff]
      intro i hi
      rcases Nat.lt_succ_iff_lt_or_eq.mp hi with hi | rfl
      · exact hlt i hi
      · exact hp
    rw [h, Nat.cast_le] at hsucc
    omega
  · rintro ⟨hp, hlt⟩
    exact le_antisymm (firstTime_le hp) (le_firstTime_iff.mpr hlt)

theorem firstTime_eq_top_iff : firstTime p = ⊤ ↔ ∀ k, ¬ p k := by
  constructor
  · intro h k hk
    have := firstTime_le hk
    rw [h, top_le_iff] at this
    exact ENat.natCast_ne_top k this
  · intro h
    rw [ENat.eq_top_iff_forall_ge]
    intro n
    rw [le_firstTime_iff]
    intro i _
    exact h i

theorem lt_firstTime_iff : (n : ℕ∞) < firstTime p ↔ (n : ℕ∞) ≤ firstTime p ∧ ¬ p n := by
  rw [lt_iff_le_and_ne]
  constructor
  · rintro ⟨hle, hne⟩
    exact ⟨hle, fun hp => hne (le_antisymm hle (firstTime_le hp))⟩
  · rintro ⟨hle, hp⟩
    exact ⟨hle, fun heq => hp (firstTime_eq_coe_iff.mp heq.symm).1⟩

end

/-- the time when a budget is used up -/
def budgetTime : Option Nat → ℕ∞
  | none => ⊤
  | some most => most

def Limits.untimed (space : Nat) (budget : Option Nat) : Limits := ⟨space, none, budget⟩

theorem Limits.stepsAreUp_untimed_iff {space n : Nat} {budget : Option Nat} :
    (untimed space budget).stepsAreUp n = true ↔ budgetTime budget ≤ n := by
  cases budget with
  | none => simp [untimed, stepsAreUp, budgetTime]
  | some most => simp [untimed, stepsAreUp, budgetTime]

namespace Machine

/-- the first time that the tape has more cells than allowed -/
noncomputable def overflowTime (m : Machine) (space : Nat) : ℕ∞ :=
  firstTime fun k => space < (m.after k).tape.visited

noncomputable def haltTime (m : Machine) : ℕ∞ :=
  firstTime fun k => (m.after k).state = haltState

noncomputable def faultTime (m : Machine) : ℕ∞ :=
  firstTime fun k => ∃ fault, m.step (m.after k) = .stuck fault

variable {m : Machine} {space n : Nat} {budget : Option Nat} {clock : Clock}

/-! ## the run before its end -/

theorem takes_iff : m.Takes n ↔ (n : ℕ∞) ≤ m.haltTime ∧ (n : ℕ∞) ≤ m.faultTime := by
  rw [haltTime, faultTime, le_firstTime_iff, le_firstTime_iff]
  constructor
  · intro h
    constructor
    · intro i hi h0
      obtain ⟨next, hnext⟩ := h i hi
      rw [step_eq_halted_iff.mpr h0] at hnext
      cases hnext
    · rintro i hi ⟨fault, hfault⟩
      obtain ⟨next, hnext⟩ := h i hi
      rw [hfault] at hnext
      cases hnext
  · rintro ⟨hhalt, hfault⟩ i hi
    cases hstep : m.step (m.after i) with
    | moved next => exact ⟨next, rfl⟩
    | halted => exact absurd (step_eq_halted_iff.mp hstep) (hhalt i hi)
    | stuck fault => exact absurd ⟨fault, hstep⟩ (hfault i hi)

theorem steps_after_of_le (hhalt : (n : ℕ∞) ≤ m.haltTime) (hfault : (n : ℕ∞) ≤ m.faultTime) :
    (m.after n).steps = n :=
  steps_after (takes_iff.mpr ⟨hhalt, hfault⟩)

/-- a run is still going on before a time exactly if nothing has happened until then -/
theorem stopAt_eq_none_before_iff :
    (∀ i < n, m.stopAt (.untimed space budget) clock i = none) ↔
      (n : ℕ∞) ≤ m.overflowTime space ∧ (n : ℕ∞) ≤ m.haltTime ∧ (n : ℕ∞) ≤ m.faultTime ∧
        (n : ℕ∞) ≤ budgetTime budget := by
  constructor
  · intro h
    have hruns : m.StillRuns (.untimed space budget) clock n := h
    obtain ⟨hhalt, hfault⟩ := takes_iff.mp hruns.takes
    refine ⟨?_, hhalt, hfault, ?_⟩
    · rw [overflowTime, le_firstTime_iff]
      intro i hi
      exact Nat.not_lt.mpr (hruns.goesOn hi).space
    · cases budget with
      | none => exact le_top
      | some most => exact Nat.cast_le.mpr (hruns.le_budget rfl)
  · rintro ⟨hspace, hhalt, hfault, hbudget⟩ i hi
    have htakes := takes_iff.mpr ⟨hhalt, hfault⟩
    have hcount : (m.after i).steps = i := steps_after (htakes.of_le (Nat.le_of_lt hi))
    refine stop?_eq_none_iff.mpr ⟨⟨?_, ?_, rfl, ?_⟩, htakes i hi⟩
    · exact Nat.not_lt.mp (le_firstTime_iff.mp hspace i hi)
    · exact le_firstTime_iff.mp hhalt i hi
    · rw [Bool.eq_false_iff, ne_eq, hcount, Limits.stepsAreUp_untimed_iff]
      intro hup
      have := Nat.cast_le.mp (hbudget.trans hup)
      omega

theorem endsIn_untimed_iff {outcome : Outcome} :
    m.EndsIn (.untimed space budget) clock outcome ↔
      ∃ n : Nat, Stops m (.untimed space budget) (clock n) (m.after n) outcome ∧
        (n : ℕ∞) ≤ m.overflowTime space ∧ (n : ℕ∞) ≤ m.haltTime ∧ (n : ℕ∞) ≤ m.faultTime ∧
        (n : ℕ∞) ≤ budgetTime budget := by
  rw [endsIn_iff]
  constructor
  · rintro ⟨n, hn, hlt⟩
    obtain ⟨hspace, hhalt, hfault, hbudget⟩ := stopAt_eq_none_before_iff.mp hlt
    rw [stopAt, stop?_eq_some_iff, steps_after_of_le hhalt hfault] at hn
    exact ⟨n, hn, hspace, hhalt, hfault, hbudget⟩
  · rintro ⟨n, hn, hspace, hhalt, hfault, hbudget⟩
    refine ⟨n, ?_, stopAt_eq_none_before_iff.mpr ⟨hspace, hhalt, hfault, hbudget⟩⟩
    rw [stopAt, stop?_eq_some_iff, steps_after_of_le hhalt hfault]
    exact hn

/-! ## the four times -/

theorem visited_after_mono {i k : Nat} (h : i ≤ k) :
    (m.after i).tape.visited ≤ (m.after k).tape.visited := by
  induction k, h using Nat.le_induction with
  | base => exact Nat.le_refl _
  | succ k _ ih =>
    refine Nat.le_trans ih ?_
    rcases m.pass_cases (m.after k) with hsame | ⟨t, _, hmoved⟩
    · rw [after_succ, hsame]
    · rw [after_succ, hmoved]
      exact Tape.visited_le_visited_shift ((m.after k).tape.write t.write) t.shift

/-- cells are never given back, so only the last configuration counts -/
theorem lt_overflowTime_iff :
    (n : ℕ∞) < m.overflowTime space ↔ (m.after n).tape.visited ≤ space := by
  rw [overflowTime, lt_firstTime_iff, le_firstTime_iff, Nat.not_lt]
  constructor
  · rintro ⟨_, h⟩
    exact h
  · intro h
    refine ⟨fun i hi => Nat.not_lt.mpr ?_, h⟩
    exact Nat.le_trans (visited_after_mono (Nat.le_of_lt hi)) h

theorem faultTime_of_haltTime {k : Nat} (h : m.haltTime = k) : m.faultTime = ⊤ := by
  obtain ⟨h0, hbefore⟩ := firstTime_eq_coe_iff.mp h
  rw [faultTime, firstTime_eq_top_iff]
  rintro n ⟨fault, hfault⟩
  have hne := (step_eq_stuck_iff.mp hfault).1
  rcases Nat.le_total k n with hle | hle
  · -- a halted configuration stays
    rw [after_of_fixed (pass_of_halted (step_eq_halted_iff.mpr h0)) hle] at hne
    exact hne h0
  · -- a stuck configuration stays
    rw [after_of_fixed (pass_of_stuck hfault) hle] at h0
    exact hne h0

/-! ## the outcomes -/

theorem endsIn_space_iff : m.EndsIn (.untimed space budget) clock (.exceeded .space) ↔
    m.overflowTime space ≠ ⊤ ∧ m.overflowTime space ≤ m.haltTime ∧
      m.overflowTime space ≤ m.faultTime ∧ m.overflowTime space ≤ budgetTime budget := by
  rw [endsIn_untimed_iff]
  constructor
  · rintro ⟨n, hstops, hspace, hhalt, hfault, hbudget⟩
    cases hstops with
    | space hlt =>
      have heq : m.overflowTime space = n := le_antisymm (firstTime_le hlt) hspace
      rw [heq]
      exact ⟨ENat.natCast_ne_top n, hhalt, hfault, hbudget⟩
  · rintro ⟨hne, hhalt, hfault, hbudget⟩
    obtain ⟨n, hn⟩ := ENat.ne_top_iff_exists.mp hne
    rw [← hn] at hhalt hfault hbudget
    exact ⟨n, .space (firstTime_eq_coe_iff.mp hn.symm).1, hn.le, hhalt, hfault, hbudget⟩

theorem endsIn_halted_iff {score steps : Nat} :
    m.EndsIn (.untimed space budget) clock (.halted score steps) ↔
      m.haltTime < m.overflowTime space ∧ m.haltTime ≤ budgetTime budget ∧
        (steps : ℕ∞) = m.haltTime ∧ score = (m.after steps).tape.score := by
  rw [endsIn_untimed_iff]
  constructor
  · rintro ⟨n, hstops, hspace, hhalt, hfault, hbudget⟩
    have hcount := steps_after_of_le hhalt hfault
    cases hstops with
    | halted hle h0 =>
      have heq : m.haltTime = n := le_antisymm (firstTime_le h0) hhalt
      rw [heq, hcount]
      exact ⟨lt_overflowTime_iff.mpr hle, hbudget, rfl, rfl⟩
  · rintro ⟨hspace, hbudget, hsteps, rfl⟩
    rw [← hsteps] at hspace hbudget
    have hfault : (steps : ℕ∞) ≤ m.faultTime := by
      rw [faultTime_of_haltTime hsteps.symm]
      exact le_top
    have hcount := steps_after_of_le hsteps.le hfault
    have hstops : Stops m (.untimed space budget) (clock steps) (m.after steps)
        (.halted (m.after steps).tape.score (m.after steps).steps) :=
      .halted (lt_overflowTime_iff.mp hspace) (firstTime_eq_coe_iff.mp hsteps.symm).1
    rw [hcount] at hstops
    exact ⟨steps, hstops, hspace.le, hsteps.le, hfault, hbudget⟩

theorem endsIn_steps_iff : m.EndsIn (.untimed space budget) clock (.exceeded .steps) ↔
    budgetTime budget < m.haltTime ∧ budgetTime budget < m.overflowTime space ∧
      budgetTime budget ≤ m.faultTime := by
  rw [endsIn_untimed_iff]
  constructor
  · rintro ⟨n, hstops, hspace, hhalt, hfault, hbudget⟩
    have hcount := steps_after_of_le hhalt hfault
    cases hstops with
    | steps hle h0 _ hup =>
      rw [hcount, Limits.stepsAreUp_untimed_iff] at hup
      rw [le_antisymm hup hbudget]
      exact ⟨lt_firstTime_iff.mpr ⟨hhalt, h0⟩, lt_overflowTime_iff.mpr hle, hfault⟩
  · rintro ⟨hhalt, hspace, hfault⟩
    obtain ⟨n, hn⟩ := ENat.ne_top_iff_exists.mp hhalt.ne_top
    rw [← hn] at hhalt hspace hfault
    have hcount := steps_after_of_le hhalt.le hfault
    refine ⟨n, .steps (lt_overflowTime_iff.mp hspace) (lt_firstTime_iff.mp hhalt).2 rfl ?_,
      hspace.le, hhalt.le, hfault, hn.le⟩
    rw [hcount, Limits.stepsAreUp_untimed_iff, ← hn]

theorem endsIn_failed_iff {fault : Fault} :
    m.EndsIn (.untimed space budget) clock (.failed fault) ↔
      m.faultTime < m.haltTime ∧ m.faultTime < m.overflowTime space ∧
        m.faultTime < budgetTime budget ∧
        ∃ k : Nat, m.faultTime = k ∧ m.step (m.after k) = .stuck fault := by
  rw [endsIn_untimed_iff]
  constructor
  · rintro ⟨n, hstops, hspace, hhalt, hfault, hbudget⟩
    have hcount := steps_after_of_le hhalt hfault
    cases hstops with
    | fault hgo hstuck =>
      have heq : m.faultTime = n := le_antisymm (firstTime_le ⟨fault, hstuck⟩) hfault
      have hsteps := hgo.steps
      rw [Bool.eq_false_iff, ne_eq, hcount, Limits.stepsAreUp_untimed_iff, not_le] at hsteps
      rw [heq]
      exact ⟨lt_firstTime_iff.mpr ⟨hhalt, hgo.state⟩, lt_overflowTime_iff.mpr hgo.space, hsteps,
        n, rfl, hstuck⟩
  · rintro ⟨hhalt, hspace, hbudget, n, hn, hstuck⟩
    rw [hn] at hhalt hspace hbudget
    have hcount := steps_after_of_le hhalt.le hn.ge
    have hsteps : (Limits.untimed space budget).stepsAreUp (m.after n).steps = false := by
      rw [Bool.eq_false_iff, ne_eq, hcount, Limits.stepsAreUp_untimed_iff, not_le]
      exact hbudget
    exact ⟨n, .fault ⟨lt_overflowTime_iff.mp hspace, (lt_firstTime_iff.mp hhalt).2, rfl, hsteps⟩
      hstuck, hspace.le, hhalt.le, hn.ge, hbudget.le⟩

theorem neverEnds_untimed_iff : m.NeverEnds (.untimed space budget) clock ↔
    m.overflowTime space = ⊤ ∧ m.haltTime = ⊤ ∧ m.faultTime = ⊤ ∧ budgetTime budget = ⊤ := by
  rw [neverEnds_iff]
  simp only [ENat.eq_top_iff_forall_ge, ← forall_and]
  constructor
  · intro h n
    exact stopAt_eq_none_before_iff.mp fun i _ => h i
  · intro h n
    exact stopAt_eq_none_before_iff.mpr (h (n + 1)) n (by omega)

/-- whatever the limits, a run that halts has run for the time that the machine takes -/
theorem EndsAt.haltTime_eq {l : Limits} {score steps : Nat}
    (h : m.EndsAt l clock n (.halted score steps)) :
    m.haltTime = n ∧ score = (m.after n).tape.score ∧ steps = n := by
  have hhalt := (takes_iff.mp h.takes).1
  obtain ⟨hstate, _, hscore, hsteps⟩ := h.of_halted
  exact ⟨le_antisymm (firstTime_le hstate) hhalt, hscore, hsteps⟩

/-- what a halting run reports does not depend on its limits -/
theorem EndsIn.halted_eq {l l' : Limits} {clock' : Clock} {score steps score' steps' : Nat}
    (h : m.EndsIn l clock (.halted score steps)) (h' : m.EndsIn l' clock' (.halted score' steps')) :
    score = score' ∧ steps = steps' := by
  obtain ⟨n, hn⟩ := endsIn_iff.mp h
  obtain ⟨n', hn'⟩ := endsIn_iff.mp h'
  obtain ⟨htime, rfl, rfl⟩ := hn.haltTime_eq
  obtain ⟨htime', rfl, rfl⟩ := hn'.haltTime_eq
  rw [htime, Nat.cast_inj] at htime'
  rw [htime']
  exact ⟨rfl, rfl⟩

end Machine

/-- **The first event decides the outcome of a run without a time budget.**  With `j`, `h`, `e` and
`x` the times when the tape outgrows its ceiling, the machine halts, a step fails and the budget of
steps is used up, ties go to the space ceiling first, then to the halted state, then to the budget.
So a machine that halts does so under every ceiling that its cells and steps keep to and under no
smaller one, and it always reports the same. -/
theorem run_decided_by_first_event (m : Machine) (space : Nat) (budget : Option Nat)
    (clock : Clock) :
    let l : Limits := ⟨space, none, budget⟩
    let j := m.overflowTime space
    let h := m.haltTime
    let e := m.faultTime
    let x := budgetTime budget
    (m.EndsIn l clock (.exceeded .space) ↔ j ≠ ⊤ ∧ j ≤ h ∧ j ≤ e ∧ j ≤ x) ∧
    (∀ score steps, m.EndsIn l clock (.halted score steps) ↔
      h < j ∧ h ≤ x ∧ (steps : ℕ∞) = h ∧ score = (m.after steps).tape.score) ∧
    (m.EndsIn l clock (.exceeded .steps) ↔ x < h ∧ x < j ∧ x ≤ e) ∧
    (∀ fault, m.EndsIn l clock (.failed fault) ↔
      e < h ∧ e < j ∧ e < x ∧ ∃ k : Nat, e = k ∧ m.step (m.after k) = .stuck fault) ∧
    (m.NeverEnds l clock ↔ j = ⊤ ∧ h = ⊤ ∧ e = ⊤ ∧ x = ⊤) ∧
    (∀ k : Nat, h = k → ∀ score steps, m.EndsIn l clock (.halted score steps) ↔
      (score = (m.after k).tape.score ∧ steps = k) ∧
        (m.after k).tape.visited ≤ space ∧ (k : ℕ∞) ≤ x) ∧
    (∀ (l' : Limits) (clock' : Clock) (score steps score' steps' : Nat),
      m.EndsIn l clock (.halted score steps) → m.EndsIn l' clock' (.halted score' steps') →
        score = score' ∧ steps = steps') := by
  intro l j h e x
  refine ⟨Machine.endsIn_space_iff, fun _ _ => Machine.endsIn_halted_iff,
    Machine.endsIn_steps_iff, fun _ => Machine.endsIn_failed_iff,
    Machine.neverEnds_untimed_iff, ?_, fun _ _ _ _ _ _ => Machine.EndsIn.halted_eq⟩
  intro k hk score steps
  have hlt : m.haltTime < m.overflowTime space ↔ (m.after k).tape.visited ≤ space := by
    rw [← Machine.lt_overflowTime_iff, ← hk]
  have hhalted : m.EndsIn l clock (.halted score steps) ↔ _ := Machine.endsIn_halted_iff
  rw [hhalted, hlt, show m.haltTime = k from hk, Nat.cast_inj]
  constructor
  · rintro ⟨hspace, hbudget, rfl, rfl⟩
    exact ⟨⟨rfl, rfl⟩, hspace, hbudget⟩
  · rintro ⟨⟨rfl, rfl⟩, hspace, hbudget⟩
    exact ⟨hspace, hbudget, rfl, rfl⟩

end Holdout
