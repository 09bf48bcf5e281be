import Holdout.Proofs.Run.Observers
import Holdout.Proofs.Run.Safety

/-!
# Counters

The cells, the transitions and the score of a run bound one another: a transition adds at most one
cell, no cell holds more than the greatest symbol, and a run that a limit has not ended yet has not
gone past that limit, but for the one cell that is found too late.  So counters that are machine words
do not overflow under a budget of transitions.

* `Machine.visited_after_le_count`, `InRange.score_le`   the bounds that every configuration keeps to;
* `Bounded`, `Machine.StillRuns.bounded`   these and the bounds by the limits, while a run has not
                            ended;
* `Machine.wordSteps`, `Tape.wordScore`   the counter of transitions and the score as machine words;
* `Machine.toNat_wordSteps`, `Tape.toNat_wordScore`   they are exact below `2 ^ 64`;
* `counters_bounded`        all of it for decoded machines under all limits.
-/

namespace Holdout

namespace Machine

/-- a transition adds at most one cell -/
theorem visited_after_le_count {m : Machine} (k : Nat) : (m.after k).tape.visited ≤ k + 1 := by
  induction k with
  | zero => exact Nat.le_refl 1
  | succ k ih => exact Nat.le_trans (visited_growth_le_one m k) (Nat.succ_le_succ ih)

end Machine

/-- no cell holds more than the greatest symbol -/
theorem InRange.score_le {symbols states : Nat} {c : Config} (h : InRange symbols states c) :
    c.tape.score ≤ (symbols - 1) * c.tape.visited := by
  have hcells : ∀ x ∈ c.tape.cells.map UInt8.toNat, x ≤ symbols - 1 := by
    intro x hx
    obtain ⟨a, ha, rfl⟩ := List.mem_map.mp hx
    exact Nat.le_sub_one_of_lt (h.cells_lt a ha)
  have hsum := List.sum_le_card_nsmul _ _ hcells
  rw [List.length_map, Tape.length_cells, smul_eq_mul, Nat.mul_comm] at hsum
  rw [Tape.score, Tape.foldl_add_toNat, Nat.zero_add]
  exact hsum

/-- what a configuration keeps to while its run has not ended -/
structure Bounded (symbols : Nat) (l : Limits) (c : Config) : Prop where
  visited_le_steps : c.tape.visited ≤ c.steps + 1
  visited_le_space : c.tape.visited ≤ l.space + 1
  head_lt : c.tape.head < c.tape.visited
  steps_le : ∀ budget, l.steps = some budget → c.steps ≤ budget
  score_le : c.tape.score ≤ (symbols - 1) * c.tape.visited

namespace Machine

variable {m : Machine} {l : Limits} {clock : Clock} {k n : Nat}

theorem StillRuns.bounded (h : m.StillRuns l clock k) (hclosed : m.table.Closed) :
    Bounded m.symbols l (m.after k) where
  visited_le_steps := by
    rw [h.steps_eq]
    exact visited_after_le_count k
  visited_le_space := h.visited_le
  head_lt := Tape.head_lt_visited _
  steps_le := by
    intro budget hbudget
    rw [h.steps_eq]
    exact h.le_budget hbudget
  score_le := (inRange_after hclosed k).score_le

/-- a run that halts has not gone past any limit -/
theorem EndsAt.bounded_of_halted {score steps : Nat}
    (h : m.EndsAt l clock n (.halted score steps)) (hclosed : m.table.Closed) :
    1 ≤ steps ∧ (∀ budget, l.steps = some budget → steps ≤ budget) ∧
      score ≤ (m.symbols - 1) * min l.space (steps + 1) := by
  obtain ⟨_, hspace, hscore, hsteps⟩ := h.of_halted
  obtain ⟨i, hi⟩ := h.exists_succ_of_halted
  have hvisited : (m.after n).tape.visited ≤ min l.space (n + 1) :=
    Nat.le_min.mpr ⟨hspace, visited_after_le_count n⟩
  rw [hsteps, hscore]
  refine ⟨by omega, fun _ => h.stillRuns.le_budget, ?_⟩
  exact Nat.le_trans (inRange_after hclosed n).score_le (Nat.mul_le_mul_left _ hvisited)

/-! ## machine words -/

/-- the number of transitions that the first `k` steps take, counted in a machine word -/
def wordSteps (m : Machine) : (k : Nat) → UInt64
  | 0 => 0
  | k + 1 =>
    match m.step (m.after k) with
    | .moved _ => wordSteps m k + 1
    | .halted => wordSteps m k
    | .stuck _ => wordSteps m k

theorem wordSteps_succ (h : m.Takes (k + 1)) : m.wordSteps (k + 1) = m.wordSteps k + 1 := by
  obtain ⟨_, next, hnext⟩ := takes_succ_iff.mp h
  rw [wordSteps, hnext]

/-- as long as the word can hold it, the count is right -/
theorem toNat_wordSteps (h : m.Takes k) (hlt : k < 2 ^ 64) : (m.wordSteps k).toNat = k := by
  induction k with
  | zero => rfl
  | succ k ih =>
    rw [wordSteps_succ h, UInt64.toNat_add, ih (takes_succ_iff.mp h).1 (by omega)]
    exact Nat.mod_eq_of_lt hlt

end Machine

namespace Tape

/-- the score, added up in a machine word -/
def wordScore (t : Tape) : UInt64 := t.cells.foldl (fun sum s => sum + s.toUInt64) 0

theorem toNat_foldl_add_toUInt64 (cells : List Symbol) (sum : UInt64)
    (h : sum.toNat + (cells.map UInt8.toNat).sum < 2 ^ 64) :
    (cells.foldl (fun sum s => sum + s.toUInt64) sum).toNat =
      sum.toNat + (cells.map UInt8.toNat).sum := by
  induction cells generalizing sum with
  | nil => rfl
  | cons s cells ih =>
    rw [List.map_cons, List.sum_cons] at h
    have hadd : (sum + s.toUInt64).toNat = sum.toNat + s.toNat := by
      rw [UInt64.toNat_add, UInt8.toNat_toUInt64]
      exact Nat.mod_eq_of_lt (by omega)
    rw [List.foldl_cons, ih _ (by omega), hadd, List.map_cons, List.sum_cons, Nat.add_assoc]

/-- as long as the word can hold it, the sum is right -/
theorem toNat_wordScore {t : Tape} (h : t.score < 2 ^ 64) : t.wordScore.toNat = t.score := by
  have hscore : t.score = (t.cells.map UInt8.toNat).sum := by
    rw [score, foldl_add_toNat, Nat.zero_add]
  have hzero : (0 : UInt64).toNat + (t.cells.map UInt8.toNat).sum = t.score := by
    rw [hscore, UInt64.toNat_zero, Nat.zero_add]
  rw [wordScore, toNat_foldl_add_toUInt64 _ _ (by omega), hzero]

end Tape

/-- the score of a decoded machine under a budget of transitions -/
theorem Bounded.score_le_budget {symbols : Nat} {l : Limits} {c : Config} {budget : Nat}
    (h : Bounded symbols l c) (hsymbols : symbols ≤ 10) (hbudget : l.steps = some budget) :
    c.tape.score ≤ 9 * (budget + 1) := by
  have hvisited : c.tape.visited ≤ budget + 1 :=
    Nat.le_trans h.visited_le_steps (Nat.succ_le_succ (h.steps_le budget hbudget))
  have hsymbol : symbols - 1 ≤ 9 := Nat.sub_le_sub_right hsymbols 1
  exact Nat.le_trans h.score_le (Nat.mul_le_mul hsymbol hvisited)

/-- **Cells, transitions and score bound one another.**  Whenever a run of a decoded machine looks at
its limits, the cells are at most one more than the transitions and at most one too many for the
space, the transitions keep to the budget, and the score is at most the greatest symbol on every
cell.  A run that halts keeps to all limits.  So under a budget that fits into a machine word the
counter of transitions never wraps around, and neither does the score if nine times as much, and nine
for the first cell, fit as well. -/
theorem counters_bounded {symbols : Nat} {m : Machine} (h : Decoded symbols m) (l : Limits)
    (clock : Clock) :
    (∀ k, m.StillRuns l clock k → Bounded symbols l (m.after k)) ∧
    (∀ score steps, m.EndsIn l clock (.halted score steps) →
      1 ≤ steps ∧ (∀ budget, l.steps = some budget → steps ≤ budget) ∧
        score ≤ (symbols - 1) * min l.space (steps + 1)) ∧
    (∀ budget : UInt64, l.steps = some budget.toNat → ∀ k, m.StillRuns l clock k →
      (m.wordSteps k).toNat = (m.after k).steps ∧
        (9 * (budget.toNat + 1) < 2 ^ 64 →
          (m.after k).tape.wordScore.toNat = (m.after k).tape.score)) := by
  have hclosed := h.closed
  have hsymbols := h.symbols_eq
  have hbounded : ∀ k, m.StillRuns l clock k → Bounded symbols l (m.after k) := by
    intro k hk
    rw [← hsymbols]
    exact hk.bounded hclosed
  refine ⟨hbounded, ?_, ?_⟩
  · intro score steps hends
    obtain ⟨n, hn⟩ := Machine.endsIn_iff.mp hends
    rw [← hsymbols]
    exact hn.bounded_of_halted hclosed
  · intro budget hbudget k hk
    have hsteps := (hbounded k hk).steps_le _ hbudget
    have hword := budget.toNat_lt
    refine ⟨?_, fun hlt => Tape.toNat_wordScore ?_⟩
    · rw [hk.steps_eq] at hsteps ⊢
      exact Machine.toNat_wordSteps hk.takes (by omega)
    · exact Nat.lt_of_le_of_lt ((hbounded k hk).score_le_budget h.symbols_le hbudget) hlt

/-- the machine that writes the most of all that have two states and two symbols -/
def champion : Machine :=
  ⟨"1RB1LB_1LA1RZ", Table.ofList 2 [⟨1, .right, 2⟩, ⟨1, .left, 2⟩, ⟨1, .left, 1⟩, ⟨1, .right, 0⟩], 0,
    Nat.two_pos⟩

/-- it halts just within its limits, with no cell to spare -/
theorem counters_bounded_champion :
    decode champion.code 2 = .ok champion ∧
      champion.EndsIn ⟨4, none, some 6⟩ Clock.stopped (.halted 4 6) ∧ 4 ≤ (2 - 1) * min 4 (6 + 1) ∧
      Bounded 2 ⟨4, none, some 6⟩ (champion.after 6) ∧
      (champion.wordSteps 6).toNat = (champion.after 6).steps ∧
      (champion.after 6).tape.wordScore.toNat = (champion.after 6).tape.score := by
  have hdecode : decode champion.code 2 = .ok champion := rfl
  have hends : champion.EndsIn ⟨4, none, some 6⟩ Clock.stopped (.halted 4 6) := ⟨7, rfl⟩
  have hruns : champion.StillRuns ⟨4, none, some 6⟩ Clock.stopped 6 := by
    intro i hi
    interval_cases i <;> rfl
  obtain ⟨hbounded, hhalted, hwords⟩ :=
    counters_bounded (.decode hdecode) ⟨4, none, some 6⟩ Clock.stopped
  obtain ⟨hsteps, hscore⟩ := hwords 6 rfl 6 hruns
  exact ⟨hdecode, hends, (hhalted 4 6 hends).2.2, hbounded 6 hruns, hsteps, hscore (by decide)⟩

end Holdout
