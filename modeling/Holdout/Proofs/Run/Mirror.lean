import Holdout.Proofs.Run.Simulation
import Holdout.Proofs.Table

/-!
# Left and right

Turn every shift of a table around, and its runs turn around with it: the machine comes to the same
states in the same order, with the cells in reverse order under a head that counts from the other
end.  So both machines end alike.

* `Tape.mirror`, `Config.mirror`, `Snapshot.mirror`   the other way round;
* `Table.mirror`, `Machine.mirror`   every shift turned around, halting transitions included;
* `Tape.mirror_shift`       growing on the left is growing on the right seen in a mirror;
* `Machine.move_mirror`     one move of the mirror image;
* `Machine.simulates_mirror`   the mirror image comes to the mirrored configurations;
* `MirrorRuns`, `mirror_runs_alike`   all of it for every table, under all limits.
-/

namespace Holdout

/-! ## one shift -/

def Direction.flip : Direction → Direction
  | .left => .right
  | .right => .left

/-- the transition with the shift turned around -/
def Transition.mirror (t : Transition) : Transition := ⟨t.write, t.shift.flip, t.next⟩

namespace Tape

theorem visited_eq_swapped (t : Tape) : t.visited = t.right.length + 1 + t.left.length := by
  have h := t.visited_eq
  omega

/-- the tape seen from behind: its two ends change places -/
def mirror (t : Tape) : Tape :=
  ⟨t.right, t.read, t.left, t.blank, t.visited, visited_eq_swapped t⟩

theorem mirror_write (t : Tape) (s : Symbol) : (t.write s).mirror = t.mirror.write s := rfl

theorem mirror_shift (t : Tape) (d : Direction) :
    (t.shift d).mirror = t.mirror.shift d.flip := by
  obtain ⟨left, read, right, blank, visited, _⟩ := t
  cases d with
  | left => cases left <;> rfl
  | right => cases right <;> rfl

theorem cells_mirror (t : Tape) : t.mirror.cells = t.cells.reverse := by
  show t.right.reverse ++ t.read :: t.left = (t.left.reverse ++ t.read :: t.right).reverse
  rw [List.reverse_append, List.reverse_cons, List.reverse_reverse, List.append_assoc]
  rfl

theorem head_mirror (t : Tape) : t.mirror.head = t.visited - 1 - t.head := by
  have h := t.visited_eq
  show t.right.length = t.visited - 1 - t.left.length
  omega

theorem score_mirror (t : Tape) : t.mirror.score = t.score := by
  rw [score, score, foldl_add_toNat, foldl_add_toNat, cells_mirror, List.map_reverse,
    List.sum_reverse]

end Tape

/-! ## tables -/

namespace Table

theorem full_mirror (t : Table) : (t.transitions.map Transition.mirror).size % t.symbols = 0 := by
  rw [Array.size_map]
  exact t.full

/-- the table with every shift turned around -/
def mirror (t : Table) : Table :=
  ⟨t.symbols, t.transitions.map Transition.mirror, t.symbols_pos, full_mirror t⟩

theorem states_mirror (t : Table) : t.mirror.states = t.states := by
  show (t.transitions.map Transition.mirror).size / t.symbols = _
  rw [Array.size_map]
  rfl

theorem hasRow_mirror (t : Table) (state : Nat) : t.mirror.hasRow state = t.hasRow state := by
  rw [hasRow, hasRow, states_mirror]

theorem get?_mirror (t : Table) (state : Nat) (symbol : Symbol) :
    t.mirror.get? state symbol = (t.get? state symbol).map Transition.mirror := by
  rw [get?, get?, hasRow_mirror]
  show (if t.hasRow state && symbol.toNat < t.symbols then
    (t.transitions.map Transition.mirror)[(state - 1) * t.symbols + symbol.toNat]? else none) = _
  rw [Array.getElem?_map]
  split <;> rfl

end Table

/-- the machine with every shift turned around, under any code -/
def Machine.mirror (m : Machine) (code : String) : Machine :=
  ⟨code, m.table.mirror, m.allTape, m.allTape_lt⟩

/-! ## one step -/

def Config.mirror (c : Config) : Config := ⟨c.state, c.tape.mirror, c.steps⟩

def Step.mirror : Step → Step
  | .moved next => .moved next.mirror
  | .halted => .halted
  | .stuck fault => .stuck fault

theorem Config.mirror_apply (c : Config) (t : Transition) :
    (c.apply t).mirror = c.mirror.apply t.mirror := by
  show Config.mk t.next ((c.tape.write t.write).shift t.shift).mirror (c.steps + 1) = _
  rw [Tape.mirror_shift, Tape.mirror_write]
  rfl

namespace Machine

variable (m : Machine) (code : String)

theorem faultAt_mirror (c : Config) : (m.mirror code).faultAt c.mirror = m.faultAt c := by
  have hstates : (m.mirror code).states = m.states := m.table.states_mirror
  rw [faultAt, faultAt, hstates]
  rfl

theorem move_mirror (c : Config) :
    (m.mirror code).move c.mirror = (m.move c).map Config.mirror := by
  have hget : (m.mirror code).table.get? c.mirror.state c.mirror.tape.read =
      (m.table.get? c.state c.tape.read).map Transition.mirror := m.table.get?_mirror _ _
  rw [move, move, hget, faultAt_mirror]
  cases m.table.get? c.state c.tape.read with
  | none => rfl
  | some t => exact congrArg Except.ok (c.mirror_apply t).symm

/-- the mirror image comes to the mirrored configurations -/
theorem simulates_mirror : Simulates m (m.mirror code) fun c c' => c' = c.mirror where
  start := rfl
  state_eq := by
    rintro c _ rfl
    rfl
  steps_eq := by
    rintro c _ rfl
    rfl
  visited_eq := by
    rintro c _ rfl
    rfl
  score_eq := by
    rintro c _ rfl
    exact c.tape.score_mirror
  move := by
    rintro c _ rfl
    rw [move_mirror]
    cases hm : m.move c with
    | ok next => exact .inl ⟨next, next.mirror, rfl, rfl, rfl⟩
    | error fault => exact .inr ⟨fault, rfl, rfl⟩

end Machine

/-! ## snapshots -/

/-- the cells in reverse order, with the head counted from the other end -/
def Snapshot.mirror (s : Snapshot) : Snapshot :=
  ⟨s.tape.reverse, s.visited - 1 - s.head, s.visited⟩

theorem Snapshot.ofConfig_mirror (c : Config) :
    Snapshot.ofConfig c.mirror = (Snapshot.ofConfig c).mirror := by
  show Snapshot.mk c.tape.mirror.cells c.tape.mirror.head c.tape.visited = _
  rw [Tape.cells_mirror, Tape.head_mirror]
  rfl

/-! ## both machines -/

/-- the runs of the second machine are those of the first one seen in a mirror: the same states,
steps and faults, the cells in reverse order, and the same outcomes under all limits, on any two
clocks on which the budget of time runs out alike -/
structure MirrorRuns (m m' : Machine) : Prop where
  state_eq : ∀ k, (m'.after k).state = (m.after k).state
  steps_eq : ∀ k, (m'.after k).steps = (m.after k).steps
  cells_eq : ∀ k, (m'.after k).tape.cells = (m.after k).tape.cells.reverse
  visited_eq : ∀ k, (m'.after k).tape.visited = (m.after k).tape.visited
  head_eq : ∀ k, (m'.after k).tape.head + (m.after k).tape.head + 1 = (m.after k).tape.visited
  step_eq : ∀ k, m'.step (m'.after k) = (m.step (m.after k)).mirror
  run_eq : ∀ (l : Limits) (patience : Nat) (clock clock' : Clock),
    (∀ k, l.timeIsUp (clock k) = l.timeIsUp (clock' k)) →
      m'.run l patience clock' = m.run l patience clock
  observe_eq : ∀ {σ : Type} (observer : σ → Config → σ) (first : σ) (l : Limits) (patience : Nat)
    (clock clock' : Clock), (∀ k, l.timeIsUp (clock k) = l.timeIsUp (clock' k)) →
      m'.observe l observer patience first clock' =
        m.observe l (fun seen c => observer seen c.mirror) patience first clock
  trace_eq : ∀ (l : Limits) (most patience : Nat) (clock clock' : Clock),
    (∀ k, l.timeIsUp (clock k) = l.timeIsUp (clock' k)) →
      m'.trace l most patience clock' = (m.trace l most patience clock).map fun (outcome, kept) =>
        (outcome, kept.map Snapshot.mirror)

/-- **Left and right are treated alike**: turn every shift of any table around, and all runs turn
around. -/
theorem mirror_runs_alike (m : Machine) (code : String) : MirrorRuns m (m.mirror code) where
  state_eq := fun k => (m.simulates_mirror code).state_eq ((m.simulates_mirror code).after k)
  steps_eq := fun k => (m.simulates_mirror code).steps_eq ((m.simulates_mirror code).after k)
  cells_eq := by
    intro k
    rw [(m.simulates_mirror code).after k]
    exact Tape.cells_mirror _
  visited_eq := fun k => (m.simulates_mirror code).visited_eq ((m.simulates_mirror code).after k)
  head_eq := by
    intro k
    have hlt := (m.after k).tape.head_lt_visited
    have hhead : (m.after k).mirror.tape.head = _ := (m.after k).tape.head_mirror
    rw [(m.simulates_mirror code).after k, hhead]
    omega
  step_eq := by
    intro k
    have hsimulates := m.simulates_mirror code
    rcases hsimulates.step_cases (hsimulates.after k) with
      ⟨next, _, hs, hs', rfl⟩ | ⟨hs, hs'⟩ | ⟨fault, hs, hs'⟩
    · rw [hs, hs']
      rfl
    · rw [hs, hs']
      rfl
    · rw [hs, hs']
      rfl
  run_eq := fun _ patience _ _ hclock => (m.simulates_mirror code).run_eq hclock patience
  observe_eq := by
    intro σ observer first l patience clock clock' hclock
    refine (m.simulates_mirror code).observe_eq hclock ?_ patience first
    rintro seen c _ rfl
    rfl
  trace_eq := by
    intro l most patience clock clock' hclock
    refine (m.simulates_mirror code).trace_eq hclock ?_ most patience
    rintro c _ rfl
    exact Snapshot.ofConfig_mirror c

end Holdout
