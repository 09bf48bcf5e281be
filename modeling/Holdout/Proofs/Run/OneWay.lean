import Holdout.Analysis
import Holdout.Proofs.Endless
import Holdout.Proofs.Run.Ends
import Holdout.Proofs.Table

/-!
# Machines that never turn

If all moves of a table agree, the head is always on the outermost cell, which it has just been
given.  It reads the blank there, whatever was written before, so the state alone decides what comes
next: a machine that halts goes through its states at most once.

* `Tape.AtEdge`             the head is on the outermost, blank cell in a direction; kept by every
                            move that way (`AtEdge.move`);
* `Machine.OneWay`          every look-up gives a move in one direction;
* `Machine.taken`           the transitions that the first steps take;
* `Machine.atEdge_after`    behind the head lies what these have written, in order;
* `Machine.steps_le_states` a one-way machine that halts takes no more transitions than it has
                            states, since no state comes twice (`Machine.state_after_ne`);
* `OneWayRun`, `single_direction_foretells`   what the analysis of a table says of all its runs.
-/

namespace Holdout

/-! ## tapes -/

/-- the index of the outermost one of `k + 1` cells -/
def Direction.outermost : Direction → (k : Nat) → Nat
  | .left, _ => 0
  | .right, k => k

/-- the cells from left to right when the head has written some symbols in order, moving on after
each, and is on a blank cell now -/
def Direction.trail : Direction → (written : List Symbol) → (blank : Symbol) → List Symbol
  | .left, written, blank => blank :: written.reverse
  | .right, written, blank => written ++ [blank]

theorem Direction.sum_trail (d : Direction) (written : List Symbol) (blank : Symbol) :
    ((d.trail written blank).map UInt8.toNat).sum =
      blank.toNat + (written.map UInt8.toNat).sum := by
  cases d with
  | left =>
    show ((blank :: written.reverse).map UInt8.toNat).sum = _
    rw [List.map_cons, List.sum_cons, List.map_reverse, List.sum_reverse]
  | right =>
    show ((written ++ [blank]).map UInt8.toNat).sum = _
    rw [List.map_append, List.sum_append, List.map_singleton, List.sum_singleton, Nat.add_comm]

namespace Tape

/-- the cells before the head on its way, nearest first -/
def ahead (t : Tape) : Direction → List Symbol
  | .left => t.left
  | .right => t.right

/-- the cells that the head has left behind, nearest first -/
def behind (t : Tape) : Direction → List Symbol
  | .left => t.right
  | .right => t.left

/-- the head is on the outermost cell in a direction, which is blank, and has written the cells
behind it in order -/
structure AtEdge (d : Direction) (written : List Symbol) (t : Tape) : Prop where
  ahead_eq : t.ahead d = []
  behind_eq : t.behind d = written.reverse
  read_eq : t.read = t.blank

theorem atEdge_start (d : Direction) (blank : Symbol) : AtEdge d [] (start blank) := by
  cases d <;> exact ⟨rfl, rfl, rfl⟩

namespace AtEdge

variable {d : Direction} {written : List Symbol} {t : Tape}

theorem move (h : AtEdge d written t) (s : Symbol) :
    AtEdge d (written ++ [s]) ((t.write s).shift d) := by
  have hbehind : s :: t.behind d = (written ++ [s]).reverse := by
    rw [h.behind_eq, List.reverse_append]
    rfl
  have hahead := h.ahead_eq
  obtain ⟨left, read, right, blank, visited, _⟩ := t
  cases d with
  | left =>
    have hleft : left = [] := hahead
    subst hleft
    exact ⟨rfl, hbehind, rfl⟩
  | right =>
    have hright : right = [] := hahead
    subst hright
    exact ⟨rfl, hbehind, rfl⟩

theorem cells_eq (h : AtEdge d written t) : t.cells = d.trail written t.blank := by
  have hahead := h.ahead_eq
  have hbehind := h.behind_eq
  cases d with
  | left =>
    have hleft : t.left = [] := hahead
    have hright : t.right = written.reverse := hbehind
    rw [cells, hleft, hright, h.read_eq]
    rfl
  | right =>
    have hright : t.right = [] := hahead
    have hleft : t.left = written.reverse := hbehind
    rw [cells, hleft, hright, h.read_eq, List.reverse_reverse]
    rfl

theorem visited_eq (h : AtEdge d written t) : t.visited = written.length + 1 := by
  rw [← length_cells, h.cells_eq]
  cases d with
  | left =>
    show (t.blank :: written.reverse).length = _
    rw [List.length_cons, List.length_reverse]
  | right =>
    show (written ++ [t.blank]).length = _
    rw [List.length_append, List.length_singleton]

theorem head_eq (h : AtEdge d written t) : t.head = d.outermost written.length := by
  have hahead := h.ahead_eq
  have hbehind := h.behind_eq
  cases d with
  | left =>
    have hleft : t.left = [] := hahead
    rw [head, hleft]
    rfl
  | right =>
    have hleft : t.left = written.reverse := hbehind
    rw [head, hleft, List.length_reverse]
    rfl

theorem score_eq (h : AtEdge d written t) :
    t.score = t.blank.toNat + (written.map UInt8.toNat).sum := by
  rw [score, foldl_add_toNat, Nat.zero_add, h.cells_eq, Direction.sum_trail]

end AtEdge

end Tape

/-! ## runs -/

namespace Machine

variable {m : Machine} {d : Direction} {i j k n : Nat}

/-- every look-up that gives a transition gives a move in one direction -/
def OneWay (m : Machine) (d : Direction) : Prop :=
  ∀ state symbol t, m.table.get? state symbol = some t → t.shift = d

theorem oneWay_of_singleDirection (h : m.analysis.singleDirection = some d) : m.OneWay d := by
  have hcommon : commonDirection? (m.table.entries.map fun e => e.transition.shift) = some d := h
  obtain ⟨_, hall⟩ := commonDirection?_eq_some_iff.mp hcommon
  intro state symbol t ht
  obtain ⟨e, he, rfl⟩ := Table.exists_entry_of_get? ht
  exact hall _ (List.mem_map_of_mem he)

/-- what the table says after `k` steps -/
def transitionAt (m : Machine) (k : Nat) : Option Transition :=
  m.table.get? (m.after k).state (m.after k).tape.read

/-- the transitions that the first `k` steps take, in order -/
def taken (m : Machine) (k : Nat) : List Transition := (List.range k).filterMap m.transitionAt

theorem taken_succ {t : Transition} (h : m.transitionAt k = some t) :
    m.taken (k + 1) = m.taken k ++ [t] := by
  rw [taken, List.range_succ, List.filterMap_append, List.filterMap_cons_some h]
  rfl

theorem length_taken (h : m.Takes k) : (m.taken k).length = k := by
  induction k with
  | zero => rfl
  | succ k ih =>
    obtain ⟨t, ht, _⟩ := exists_apply_of_takes h
    rw [taken_succ ht, List.length_append, ih (takes_succ_iff.mp h).1]
    rfl

/-- the head of a one-way machine leaves behind what its transitions write -/
theorem atEdge_after (h : m.OneWay d) (hk : m.Takes k) :
    Tape.AtEdge d ((m.taken k).map Transition.write) (m.after k).tape := by
  induction k with
  | zero => exact Tape.atEdge_start d m.allTape
  | succ k ih =>
    obtain ⟨t, ht, hnext⟩ := exists_apply_of_takes hk
    have hedge := (ih (takes_succ_iff.mp hk).1).move t.write
    rw [taken_succ ht, List.map_append, hnext]
    show Tape.AtEdge d _ (((m.after k).tape.write t.write).shift t.shift)
    rw [h _ _ _ ht]
    exact hedge

theorem read_after (h : m.OneWay d) (hk : m.Takes k) : (m.after k).tape.read = m.allTape :=
  (atEdge_after h hk).read_eq.trans (blank_after m k)

theorem length_written (hk : m.Takes k) : ((m.taken k).map Transition.write).length = k := by
  rw [List.length_map, length_taken hk]

/-- every transition takes a new cell -/
theorem visited_after_of_oneWay (h : m.OneWay d) (hk : m.Takes k) :
    (m.after k).tape.visited = k + 1 := by
  rw [(atEdge_after h hk).visited_eq, length_written hk]

/-! ## states -/

/-- the head reads the same symbol each time, so from equal states a one-way machine goes on to
equal states -/
theorem state_after_succ_eq (h : m.OneWay d) (hi : m.Takes (i + 1)) (hj : m.Takes (j + 1))
    (heq : (m.after i).state = (m.after j).state) :
    (m.after (i + 1)).state = (m.after (j + 1)).state := by
  obtain ⟨t, ht, hnext⟩ := exists_apply_of_takes hi
  obtain ⟨u, hu, hnext'⟩ := exists_apply_of_takes hj
  rw [read_after h (takes_succ_iff.mp hi).1, heq] at ht
  rw [read_after h (takes_succ_iff.mp hj).1, ht] at hu
  rw [hnext, hnext', Option.some.inj hu]
  rfl

theorem state_after_add_eq (h : m.OneWay d) (heq : (m.after i).state = (m.after j).state)
    (hi : m.Takes (i + n)) (hj : m.Takes (j + n)) :
    (m.after (i + n)).state = (m.after (j + n)).state := by
  induction n with
  | zero => exact heq
  | succ n ih =>
    have heq' := ih (takes_succ_iff.mp hi).1 (takes_succ_iff.mp hj).1
    exact state_after_succ_eq h hi hj heq'

/-- before a one-way machine halts, no state comes twice: it would come again and again -/
theorem state_after_ne (h : m.OneWay d) (hn : m.Takes n) (hhalt : (m.after n).state = haltState)
    (hij : i < j) (hj : j < n) : (m.after i).state ≠ (m.after j).state := by
  intro heq
  -- as far after `i` as the end is after `j`, the machine has halted already
  have hend : j + (n - j) = n := by omega
  have hlt : i + (n - j) < n := by omega
  have hj' : m.Takes (j + (n - j)) := by
    rw [hend]
    exact hn
  have hstate := state_after_add_eq h heq (hn.of_le (Nat.le_of_lt hlt)) hj'
  rw [hend, hhalt] at hstate
  obtain ⟨t, ht, _⟩ := exists_apply_of_takes (hn.of_le hlt)
  exact state_ne_of_get? ht hstate

theorem steps_le_states (h : m.OneWay d) (hn : m.Takes n)
    (hhalt : (m.after n).state = haltState) : n ≤ m.states := by
  have hmaps : ∀ i ∈ Finset.range n, (m.after i).state ∈ Finset.Icc 1 m.states := by
    intro i hi
    obtain ⟨t, ht, _⟩ := exists_apply_of_takes (hn.of_le (Finset.mem_range.mp hi))
    exact Finset.mem_Icc.mpr (Table.hasRow_iff.mp (Table.hasRow_of_get? ht))
  have hinj : Set.InjOn (fun i => (m.after i).state) (Finset.range n) := by
    intro i hi j hj heq
    rw [Finset.mem_coe, Finset.mem_range] at hi hj
    rcases Nat.lt_trichotomy i j with hlt | hsame | hlt
    · exact absurd heq (state_after_ne h hn hhalt hlt hj)
    · exact hsame
    · exact absurd heq.symm (state_after_ne h hn hhalt hlt hi)
  have hcard := Finset.card_le_card_of_injOn _ hmaps hinj
  rwa [Finset.card_range, Nat.card_Icc, Nat.add_sub_cancel] at hcard

/-! ## the end of a run -/

/-- every step takes a new cell, so the space runs out in time -/
theorem exists_endsAt_of_oneWay (h : m.OneWay d) (l : Limits) (clock : Clock) :
    ∃ n ≤ l.space, ∃ outcome, m.EndsAt l clock n outcome := by
  by_contra hnone
  have hall : ∀ i ≤ l.space, m.stopAt l clock i = none := by
    intro i hi
    cases hstop : m.stopAt l clock i with
    | none => rfl
    | some outcome =>
      obtain ⟨k, hk, o, hends⟩ := exists_endsAt_of_stopAt hstop
      exact absurd ⟨k, Nat.le_trans hk hi, o, hends⟩ hnone
  have hruns : m.StillRuns l clock (l.space + 1) := fun i hi => hall i (Nat.le_of_lt_succ hi)
  have hvisited := visited_after_of_oneWay h (hruns.of_le (Nat.le_succ _)).takes
  have hspace := (hruns.goesOn (Nat.lt_succ_self _)).space
  omega

theorem EndsAt.halted_of_oneWay (h : m.OneWay d) {l : Limits} {clock : Clock} {score steps : Nat}
    (hends : m.EndsAt l clock n (.halted score steps)) :
    steps ≤ m.states ∧ steps + 1 ≤ l.space ∧ (m.taken steps).length = steps ∧
      score = m.allTape.toNat + ((m.taken steps).map fun t => t.write.toNat).sum := by
  have htakes := hends.takes
  obtain ⟨hhalt, hspace, hscore, hsteps⟩ := hends.of_halted
  subst hsteps
  rw [visited_after_of_oneWay h htakes] at hspace
  refine ⟨steps_le_states h htakes hhalt, hspace, length_taken htakes, ?_⟩
  rw [hscore, (atEdge_after h htakes).score_eq, blank_after, List.map_map]
  rfl

end Machine

/-- what is known of the runs of a machine that moves in one direction only: the shape of the tape
after any number of transitions, the time by which the limits end a run, the score and the number of
transitions of a run that halts, and, without limits on time and transitions, the limit that ends any
other run that does not fail -/
structure OneWayRun (m : Machine) (d : Direction) : Prop where
  length_cells : ∀ k, m.Takes k → (m.after k).tape.cells.length = k + 1
  visited_eq : ∀ k, m.Takes k → (m.after k).tape.visited = k + 1
  head_eq : ∀ k, m.Takes k → (m.after k).tape.head = d.outermost k
  read_eq : ∀ k, m.Takes k → (m.after k).tape.read = m.allTape
  cells_eq : ∀ k, m.Takes k →
    (m.after k).tape.cells = d.trail ((m.taken k).map Transition.write) m.allTape
  ends : ∀ (l : Limits) (clock : Clock), ∃ n ≤ l.space, ∃ outcome, m.EndsAt l clock n outcome
  halted : ∀ (l : Limits) (clock : Clock) (score steps : Nat),
    m.EndsIn l clock (.halted score steps) →
      steps ≤ m.states ∧ steps + 1 ≤ l.space ∧ (m.taken steps).length = steps ∧
        score = m.allTape.toNat + ((m.taken steps).map fun t => t.write.toNat).sum
  exceeded : ∀ (space : Nat) (clock : Clock) (outcome : Outcome),
    m.EndsIn ⟨space, none, none⟩ clock outcome → outcome.isHalted = false →
      outcome.isFailed = false → outcome = .exceeded .space

/-- **One direction foretells the runs**: all that is known of a machine that never turns is so as
soon as the analysis of its table finds a single direction. -/
theorem single_direction_foretells {m : Machine} {d : Direction}
    (h : m.analysis.singleDirection = some d) : OneWayRun m d where
  length_cells := by
    intro k hk
    rw [Tape.length_cells,
      Machine.visited_after_of_oneWay (Machine.oneWay_of_singleDirection h) hk]
  visited_eq := by
    intro k hk
    exact Machine.visited_after_of_oneWay (Machine.oneWay_of_singleDirection h) hk
  head_eq := by
    intro k hk
    have hedge := Machine.atEdge_after (Machine.oneWay_of_singleDirection h) hk
    rw [hedge.head_eq, Machine.length_written hk]
  read_eq := by
    intro k hk
    exact Machine.read_after (Machine.oneWay_of_singleDirection h) hk
  cells_eq := by
    intro k hk
    have hedge := Machine.atEdge_after (Machine.oneWay_of_singleDirection h) hk
    rw [hedge.cells_eq, Machine.blank_after]
  ends := Machine.exists_endsAt_of_oneWay (Machine.oneWay_of_singleDirection h)
  halted := by
    intro l clock score steps hends
    obtain ⟨n, hn⟩ := Machine.endsIn_iff.mp hends
    exact hn.halted_of_oneWay (Machine.oneWay_of_singleDirection h)
  exceeded := by
    intro space clock outcome hends hhalted hfailed
    obtain ⟨n, hn⟩ := Machine.endsIn_iff.mp hends
    cases Machine.stop?_eq_some_iff.mp hn.1 with
    | space _ => rfl
    | halted _ _ => cases hhalted
    | time _ _ htime => cases htime
    | steps _ _ _ hsteps => cases hsteps
    | fault _ _ => cases hfailed

/-- a machine that goes left all the time and comes through both of its states -/
def wanderer : Machine :=
  ⟨"1LB0LA2LA_2LZ0LA0LB", Table.ofList 3 [⟨1, .left, 2⟩, ⟨0, .left, 1⟩, ⟨2, .left, 1⟩, ⟨2, .left, 0⟩,
    ⟨0, .left, 1⟩, ⟨0, .left, 2⟩], 0, by decide⟩

/-- on three cells it halts, with as many transitions as it has states, and on two it does not -/
theorem single_direction_foretells_wanderer :
    wanderer.analysis.singleDirection = some .left ∧ OneWayRun wanderer .left ∧
      wanderer.EndsIn ⟨3, none, none⟩ Clock.stopped (.halted 3 2) ∧
      wanderer.EndsIn ⟨2, none, none⟩ Clock.stopped (.exceeded .space) := by
  have h : wanderer.analysis.singleDirection = some .left := rfl
  exact ⟨h, single_direction_foretells h, ⟨3, rfl⟩, ⟨3, rfl⟩⟩

end Holdout
