import Holdout.Run.Config
import Mathlib.Logic.Function.Iterate

/-!
# The steps of a machine

A step takes a transition, finds the machine halted or is stuck.  Everything about the three cases
is said here once; the other modules take a step apart with these lemmas and never unfold it.

* `Machine.step_eq_moved_iff`, `Machine.step_eq_halted_iff`, `Machine.step_eq_stuck_iff`
                             the three cases of a step;
* `Machine.after`            the configuration after a number of steps from the start;
* `Machine.Takes`            each of the first steps takes a transition;
* `Machine.after_induction`  what holds at the start and is kept by every transition holds always.
-/

namespace Holdout

theorem Table.get?_haltState (t : Table) (symbol : Symbol) : t.get? haltState symbol = none := by
  have h : t.hasRow haltState = false := rfl
  simp [Table.get?, h]

theorem Config.isHalted_eq_false_iff {c : Config} : c.isHalted = false ↔ c.state ≠ haltState := by
  rw [Bool.eq_false_iff, ne_eq, Config.isHalted_iff]

namespace Machine

variable {m : Machine} {c next : Config} {fault : Fault}

/-! ## one step -/

theorem state_ne_of_get? {t : Transition} (h : m.table.get? c.state c.tape.read = some t) :
    c.state ≠ haltState := by
  intro h0
  rw [h0, Table.get?_haltState] at h
  cases h

theorem step_eq_moved_iff : m.step c = .moved next ↔
    ∃ t, m.table.get? c.state c.tape.read = some t ∧ next = c.apply t := by
  constructor
  · intro h
    unfold step at h
    split at h
    · cases h
    · unfold move at h
      cases ht : m.table.get? c.state c.tape.read with
      | none => simp [ht] at h
      | some t =>
        simp only [ht, Step.moved.injEq] at h
        exact ⟨t, rfl, h.symm⟩
  · rintro ⟨t, ht, rfl⟩
    have h0 : c.isHalted = false := Config.isHalted_eq_false_iff.mpr (state_ne_of_get? ht)
    simp [step, move, h0, ht]

theorem step_eq_halted_iff : m.step c = .halted ↔ c.state = haltState := by
  constructor
  · intro h
    unfold step at h
    split at h
    · next h0 => exact Config.isHalted_iff.mp h0
    · split at h <;> cases h
  · intro h
    exact step_of_isHalted (Config.isHalted_iff.mpr h)

theorem step_eq_stuck_iff : m.step c = .stuck fault ↔
    c.state ≠ haltState ∧ m.table.get? c.state c.tape.read = none ∧ fault = m.faultAt c := by
  constructor
  · intro h
    unfold step at h
    split at h
    · cases h
    · next h0 =>
      rw [Config.isHalted_iff] at h0
      unfold move at h
      cases ht : m.table.get? c.state c.tape.read with
      | none =>
        simp only [ht, Step.stuck.injEq] at h
        exact ⟨h0, rfl, h.symm⟩
      | some t => simp [ht] at h
  · rintro ⟨h0, ht, rfl⟩
    simp [step, move, Config.isHalted_eq_false_iff.mpr h0, ht]

theorem move_eq_ok_iff : m.move c = .ok next ↔ m.step c = .moved next := by
  rw [step_eq_moved_iff]
  unfold move
  cases m.table.get? c.state c.tape.read with
  | none => simp
  | some t => simp [eq_comm]

theorem move_eq_error_iff (h : c.state ≠ haltState) :
    m.move c = .error fault ↔ m.step c = .stuck fault := by
  rw [step_eq_stuck_iff]
  unfold move
  cases m.table.get? c.state c.tape.read with
  | none => simp [h, eq_comm]
  | some t => simp

/-- the configuration that a step leaves: a halted or stuck one stays as it is -/
def pass (m : Machine) (c : Config) : Config :=
  match m.step c with
  | .moved next => next
  | .halted => c
  | .stuck _ => c

theorem pass_of_moved (h : m.step c = .moved next) : m.pass c = next := by
  simp [pass, h]

theorem pass_of_halted (h : m.step c = .halted) : m.pass c = c := by
  simp [pass, h]

theorem pass_of_stuck (h : m.step c = .stuck fault) : m.pass c = c := by
  simp [pass, h]

/-- a configuration stays as it is or goes through the transition that is looked up -/
theorem pass_cases (m : Machine) (c : Config) : m.pass c = c ∨
    ∃ t, m.table.get? c.state c.tape.read = some t ∧ m.pass c = c.apply t := by
  cases h : m.step c with
  | moved next =>
    obtain ⟨t, ht, rfl⟩ := step_eq_moved_iff.mp h
    exact .inr ⟨t, ht, pass_of_moved h⟩
  | halted => exact .inl (pass_of_halted h)
  | stuck fault => exact .inl (pass_of_stuck h)

/-! ## many steps -/

/-- the configuration after a number of steps from the start -/
def after (m : Machine) : Nat → Config
  | 0 => Config.start m
  | k + 1 => m.pass (m.after k)

theorem after_zero (m : Machine) : m.after 0 = Config.start m := rfl

theorem after_succ (m : Machine) (k : Nat) : m.after (k + 1) = m.pass (m.after k) := rfl

theorem after_add (m : Machine) (k i : Nat) : m.after (k + i) = m.pass^[i] (m.after k) := by
  induction i with
  | zero => rfl
  | succ i ih => rw [Function.iterate_succ_apply', ← ih, ← after_succ, Nat.add_assoc]

/-- a configuration that a step leaves as it is is never left again -/
theorem after_of_fixed {k n : Nat} (h : m.pass (m.after k) = m.after k) (hle : k ≤ n) :
    m.after n = m.after k := by
  obtain ⟨i, rfl⟩ := Nat.exists_eq_add_of_le hle
  rw [after_add]
  exact Function.iterate_fixed h i

/-- a list of steps from any configuration comes to the same one -/
theorem config_advanceFrom (m : Machine) (n : Nat) (a : Advance) :
    (m.advanceFrom n a).config = m.pass^[n] a.config := by
  induction n generalizing a with
  | zero => rfl
  | succ n ih =>
    rw [Function.iterate_succ_apply]
    unfold advanceFrom
    cases h : m.step a.config with
    | moved next => rw [ih, pass_of_moved h]
    | halted =>
      rw [pass_of_halted h]
      exact (Function.iterate_fixed (pass_of_halted h) n).symm
    | stuck fault =>
      rw [pass_of_stuck h]
      exact (Function.iterate_fixed (pass_of_stuck h) n).symm

theorem config_advance (n : Nat) (c : Config) : (m.advance n c).config = m.pass^[n] c :=
  config_advanceFrom m n ⟨none, c⟩

/-- what holds at the start and is kept by every transition holds after any number of steps -/
theorem after_induction {P : Config → Prop} (hstart : P (Config.start m))
    (hstep : ∀ c t, P c → m.table.get? c.state c.tape.read = some t → P (c.apply t)) (k : Nat) :
    P (m.after k) := by
  induction k with
  | zero => exact hstart
  | succ k ih =>
    rcases m.pass_cases (m.after k) with hsame | ⟨t, ht, hmoved⟩
    · rw [after_succ, hsame]
      exact ih
    · rw [after_succ, hmoved]
      exact hstep _ t ih ht

/-- each of the first steps takes a transition -/
def Takes (m : Machine) (k : Nat) : Prop := ∀ i < k, ∃ next, m.step (m.after i) = .moved next

theorem Takes.of_le {k n : Nat} (h : m.Takes n) (hle : k ≤ n) : m.Takes k := by
  intro i hi
  exact h i (Nat.lt_of_lt_of_le hi hle)

theorem takes_succ_iff {k : Nat} :
    m.Takes (k + 1) ↔ m.Takes k ∧ ∃ next, m.step (m.after k) = .moved next := by
  constructor
  · intro h
    exact ⟨fun i hi => h i (by omega), h k (by omega)⟩
  · rintro ⟨h, hk⟩ i hi
    rcases Nat.lt_succ_iff_lt_or_eq.mp hi with hi | rfl
    · exact h i hi
    · exact hk

/-- the transition that leads to the last of a number of steps -/
theorem exists_apply_of_takes {k : Nat} (h : m.Takes (k + 1)) :
    ∃ t, m.table.get? (m.after k).state (m.after k).tape.read = some t ∧
      m.after (k + 1) = (m.after k).apply t := by
  obtain ⟨_, next, hnext⟩ := takes_succ_iff.mp h
  obtain ⟨t, ht, rfl⟩ := step_eq_moved_iff.mp hnext
  exact ⟨t, ht, by rw [after_succ, pass_of_moved hnext]⟩

/-- the counter of a configuration counts its transitions -/
theorem steps_after {k : Nat} (h : m.Takes k) : (m.after k).steps = k := by
  induction k with
  | zero => rfl
  | succ k ih =>
    obtain ⟨t, _, heq⟩ := exists_apply_of_takes h
    rw [heq]
    show (m.after k).steps + 1 = k + 1
    rw [ih (takes_succ_iff.mp h).1]

end Machine

end Holdout
