import Holdout.Proofs.Code.RoundTrip
import Holdout.Proofs.Paths
import Holdout.Proofs.Run.Safety
import Holdout.Proofs.Run.Unreached

/-!
# What can halt

A run halts by a transition that goes to the halted state, and it takes that transition in a state
that a path of the table leads to.  So a table without such a transition has no run that halts, and
if it was read from a code as well, limits are all that is left to end one.

* `Table.HaltsFrom`         a state that a path leads to and some entry halts in;
* `Machine.EndsAt.exists_haltsFrom`   a run that halts has come through such a state;
* `Table.HaltsFrom.canHalt` the analysis of a table counts the entry;
* `Table.not_reported_of_pathTo`   and does not report the state;
* `Machine.withAllTape_of_lt`   a machine may be put on any blank of its alphabet;
* `can_halt_sound`           both directions for runs under all limits.
-/

namespace Holdout

namespace Table

variable {t : Table} {state : Nat}

/-- a path leads to the state, and some entry of its row halts -/
structure HaltsFrom (t : Table) (state : Nat) : Prop where
  pathTo : t.PathTo state
  halts : t.Goes state haltState

theorem HaltsFrom.canHalt (h : t.HaltsFrom state) : (Analysis.ofTable t).canHalt = true := by
  obtain ⟨row, hrow, e, he, hnext⟩ := h.halts
  obtain ⟨entry, hentry, rfl⟩ := exists_entry_of_row? hrow he
  have hcount : 0 < t.entries.countP fun e => e.transition.isHalt :=
    List.countP_pos_iff.mpr ⟨entry, hentry, Transition.isHalt_iff.mpr hnext⟩
  exact decide_eq_true hcount

theorem not_mem_unreached_of_pathTo (h : t.PathTo state) : state ∉ t.unreached := by
  intro hmem
  exact (mem_unreached_iff_not_pathTo.mp hmem).2 h

end Table

/-- a letter names one state only -/
theorem eq_of_stateName_eq {state other : Nat} (hnamed : state ≤ namedStates)
    (h : stateName other = stateName state) : other = state := by
  have hletter : Code.letterState? (stateName state) = some state :=
    Code.letterState?_stateName_iff.mpr ⟨hnamed, rfl⟩
  rw [← h] at hletter
  exact (Code.letterState?_stateName_iff.mp hletter).2

/-- a state with a letter of its own is not reported if a path leads to it -/
theorem Table.not_reported_of_pathTo {t : Table} {state : Nat} (h : t.PathTo state)
    (hnamed : state ≤ namedStates) :
    stateName state ∉ (Analysis.ofTable t).unreachableStates := by
  intro hmem
  obtain ⟨other, hother, hname⟩ := List.mem_map.mp hmem
  rw [eq_of_stateName_eq hnamed hname] at hother
  exact not_mem_unreached_of_pathTo h hother

/-! ## runs -/

namespace Machine

variable {m : Machine} {l : Limits} {clock : Clock} {n : Nat}

/-- the last transition of a run that halts is one of a state that a path leads to -/
theorem EndsAt.exists_haltsFrom {score steps : Nat}
    (h : m.EndsAt l clock n (.halted score steps)) : ∃ state, m.table.HaltsFrom state := by
  obtain ⟨k, rfl⟩ := h.exists_succ_of_halted
  obtain ⟨t, ht, hnext⟩ := exists_apply_of_takes h.takes
  have hhalt : t.next = haltState := by
    have hstate := h.of_halted.1
    rw [hnext] at hstate
    exact hstate
  have hrow := Table.hasRow_of_get? ht
  have hpath := (Table.mem_reached_iff hrow).mp (m.finds_after k hrow)
  have hgoes := Table.mem_targets_iff.mp (Table.mem_targets_of_get? ht)
  rw [hhalt] at hgoes
  exact ⟨_, hpath, hgoes⟩

theorem EndsAt.canHalt {score steps : Nat} (h : m.EndsAt l clock n (.halted score steps)) :
    m.analysis.canHalt = true := by
  obtain ⟨state, hstate⟩ := h.exists_haltsFrom
  exact hstate.canHalt

/-- limits are all that ends a run of a closed table that cannot halt -/
theorem EndsAt.exceeded_of_not_canHalt (hclosed : m.table.Closed)
    (hhalt : m.analysis.canHalt = false) {outcome : Outcome} (h : m.EndsAt l clock n outcome) :
    ∃ limit, outcome = .exceeded limit := by
  cases outcome with
  | halted score steps =>
    rw [h.canHalt] at hhalt
    cases hhalt
  | exceeded limit => exact ⟨limit, rfl⟩
  | failed fault => exact absurd h (not_endsAt_failed hclosed)

theorem withAllTape_of_lt {blank : Symbol} (h : blank.toNat < m.symbols) :
    m.withAllTape blank = .ok ⟨m.code, m.table, blank, h⟩ :=
  ofTable_eq_ok_iff.mpr ⟨rfl, rfl, rfl⟩

end Machine

/-- **What the analysis says about halting is sound.**  If any run of a machine halts, then some
entry that halts is in the row of a state that a path leads to, that state is not reported, and the
analysis finds that the machine can halt.  A decoded machine that cannot halt by its analysis, put on
any blank of its alphabet, has no run that ends but by a limit. -/
theorem can_halt_sound (m : Machine) :
    (∀ (l : Limits) (clock : Clock) (score steps : Nat), m.EndsIn l clock (.halted score steps) →
      (∃ state, m.table.HaltsFrom state ∧ state ∉ m.table.unreached ∧
        (state ≤ namedStates → stateName state ∉ m.analysis.unreachableStates)) ∧
      m.analysis.canHalt = true) ∧
    (∀ symbols, Decoded symbols m → m.analysis.canHalt = false →
      ∀ blank : Symbol, blank.toNat < symbols → ∃ m', m.withAllTape blank = .ok m' ∧
        ∀ (l : Limits) (clock : Clock) (outcome : Outcome), m'.EndsIn l clock outcome →
          ∃ limit, outcome = .exceeded limit) := by
  constructor
  · intro l clock score steps hends
    obtain ⟨n, hn⟩ := Machine.endsIn_iff.mp hends
    obtain ⟨state, hstate⟩ := hn.exists_haltsFrom
    refine ⟨⟨state, hstate, Table.not_mem_unreached_of_pathTo hstate.pathTo, ?_⟩, hn.canHalt⟩
    exact Table.not_reported_of_pathTo hstate.pathTo
  · intro symbols hdecoded hhalt blank hblank
    rw [← hdecoded.symbols_eq] at hblank
    have hblank' := Machine.withAllTape_of_lt hblank
    refine ⟨_, hblank', ?_⟩
    intro l clock outcome hends
    obtain ⟨n, hn⟩ := Machine.endsIn_iff.mp hends
    exact hn.exceeded_of_not_canHalt (hdecoded.withAllTape hblank').closed hhalt

/-- two states that go to and fro for ever, on either blank -/
def shuttle : Machine :=
  ⟨"1RB1RB_0LA1LA", Table.ofList 2 [⟨1, .right, 2⟩, ⟨1, .right, 2⟩, ⟨0, .left, 1⟩, ⟨1, .left, 1⟩],
    0, Nat.two_pos⟩

/-- a machine whose analysis reports a state and that halts without it, and one that cannot halt,
put on the other blank -/
theorem can_halt_sound_shuttle :
    (loner ⟨1, .right, 3⟩).EndsIn ⟨2, none, none⟩ Clock.stopped (.halted 1 3) ∧
      (∃ state, (loner ⟨1, .right, 3⟩).table.HaltsFrom state) ∧
      decode shuttle.code 2 = .ok shuttle ∧ shuttle.analysis.canHalt = false ∧
      ∃ m', shuttle.withAllTape 1 = .ok m' ∧
        m'.EndsIn ⟨2, none, some 7⟩ Clock.stopped (.exceeded .steps) ∧
        ∀ (l : Limits) (clock : Clock) (outcome : Outcome), m'.EndsIn l clock outcome →
          ∃ limit, outcome = .exceeded limit := by
  have hends : (loner ⟨1, .right, 3⟩).EndsIn ⟨2, none, none⟩ Clock.stopped (.halted 1 3) :=
    ⟨4, rfl⟩
  obtain ⟨⟨state, hstate, _⟩, _⟩ := (can_halt_sound _).1 _ _ _ _ hends
  have hdecode : decode shuttle.code 2 = .ok shuttle := rfl
  have hhalt : shuttle.analysis.canHalt = false := rfl
  obtain ⟨m', hm', hall⟩ := (can_halt_sound shuttle).2 2 (.decode hdecode) hhalt 1 (by decide)
  have heq : m' = ⟨shuttle.code, shuttle.table, 1, by decide⟩ := by
    rw [Machine.withAllTape_of_lt (by decide)] at hm'
    exact (Except.ok.inj hm').symm
  have hrun : m'.EndsIn ⟨2, none, some 7⟩ Clock.stopped (.exceeded .steps) := by
    rw [heq]
    exact ⟨8, rfl⟩
  exact ⟨hends, ⟨state, hstate⟩, hdecode, hhalt, m', hm', hrun, hall⟩

end Holdout
