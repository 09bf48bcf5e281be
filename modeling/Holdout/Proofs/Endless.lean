import Holdout.Proofs.Run.Steps
import Holdout.Proofs.Tape

/-!
# The textbook machine

The textbook machine runs on a tape without ends that holds the blank everywhere at first, and its
head is at an integer position.  The growing tape is the part of that tape that the head has been
on.

* `Endless`                 a configuration of the textbook machine;
* `Endless.step?`           its transition, if the table has one;
* `Endless.occupied`        the positions that its head has been on;
* `Machine.Shows`           a configuration is the window of a textbook configuration;
* `Machine.shows_after`     every run keeps to the textbook machine.
-/

namespace Holdout

/-- a configuration on a tape without ends -/
structure Endless where
  state : Nat
  position : Int
  tape : Int → Symbol

/-- how far a move takes the head -/
def Direction.offset : Direction → Int
  | .left => -1
  | .right => 1

namespace Endless

/-- the first state at position zero of a blank tape -/
def start (m : Machine) : Endless := ⟨startState, 0, fun _ => m.allTape⟩

/-- writes at the position of the head, moves the head and changes the state -/
def apply (u : Endless) (t : Transition) : Endless :=
  ⟨t.next, u.position + t.shift.offset, Function.update u.tape u.position t.write⟩

/-- the configuration after a transition, if there is one for the state and the symbol read -/
def step? (m : Machine) (u : Endless) : Option Endless :=
  if u.state = haltState then none else (m.table.get? u.state (u.tape u.position)).map u.apply

/-- the configuration after a number of transitions; where there is none it stays -/
def after (m : Machine) : Nat → Endless
  | 0 => start m
  | k + 1 => (step? m (after m k)).getD (after m k)

/-- the positions that the head has been on in the first configurations up to the `k`-th -/
def occupied (m : Machine) (k : Nat) : Finset Int :=
  (Finset.range (k + 1)).image fun i => (after m i).position

theorem occupied_succ (m : Machine) (k : Nat) :
    occupied m (k + 1) = insert (after m (k + 1)).position (occupied m k) := by
  rw [occupied, Finset.range_add_one, Finset.image_insert]
  rfl

end Endless

/-! ## windows grow by the position of the head -/

theorem Tape.window_shift (t : Tape) (d : Direction) (first : Int) :
    Finset.Ico (t.slide d first) (t.slide d first + (t.shift d).visited) =
      insert (first + t.head + d.offset) (Finset.Ico first (first + t.visited)) := by
  have hhead := Tape.head_lt_visited t
  ext p
  simp only [Finset.mem_insert, Finset.mem_Ico]
  cases d with
  | left =>
    rw [Tape.visited_shift_left]
    simp only [Tape.slide, Direction.offset]
    split <;> omega
  | right =>
    rw [Tape.visited_shift_right]
    simp only [Tape.slide, Direction.offset]
    split <;> omega

theorem Tape.head_shift_add_slide (t : Tape) (d : Direction) (first : Int) :
    t.slide d first + (t.shift d).head = first + t.head + d.offset := by
  cases d with
  | left =>
    rw [Tape.head_shift_left]
    simp only [Tape.slide, Direction.offset]
    split <;> omega
  | right =>
    rw [Tape.head_shift_right]
    simp only [Tape.slide, Direction.offset]
    omega

namespace Machine

variable {m : Machine} {c : Config} {u : Endless} {first : Int}

/-- a configuration whose tape, with its first cell at `first`, is the window of a textbook
configuration -/
structure Shows (c : Config) (u : Endless) (first : Int) : Prop where
  state_eq : c.state = u.state
  position_eq : u.position = first + c.tape.head
  tape_eq : u.tape = c.tape.spread first

theorem Shows.read_eq (h : Shows c u first) : u.tape u.position = c.tape.read := by
  rw [h.tape_eq, h.position_eq, Tape.spread_head]

theorem shows_start (m : Machine) : Shows (Config.start m) (Endless.start m) 0 where
  state_eq := rfl
  position_eq := rfl
  tape_eq := (Tape.spread_start m.allTape 0).symm

/-- both sides take the same transition, and the window slides with the shift -/
theorem Shows.apply (h : Shows c u first) (t : Transition) :
    Shows (c.apply t) (u.apply t) ((c.tape.write t.write).slide t.shift first) where
  state_eq := rfl
  position_eq := by
    show u.position + t.shift.offset = _ + (((c.tape.write t.write).shift t.shift).head : Int)
    rw [Tape.head_shift_add_slide, Tape.head_write, h.position_eq]
  tape_eq := by
    show Function.update u.tape u.position t.write =
      ((c.tape.write t.write).shift t.shift).spread _
    rw [Tape.spread_shift, Tape.spread_write, h.tape_eq, h.position_eq]

theorem Shows.step?_eq (h : Shows c u first) {t : Transition}
    (ht : m.table.get? c.state c.tape.read = some t) : Endless.step? m u = some (u.apply t) := by
  have h0 : u.state ≠ haltState := by
    rw [← h.state_eq]
    exact state_ne_of_get? ht
  rw [Endless.step?, if_neg h0, h.read_eq, ← h.state_eq, ht]
  rfl

theorem blank_after (m : Machine) (k : Nat) : (m.after k).tape.blank = m.allTape := by
  apply after_induction (P := fun c => c.tape.blank = m.allTape) rfl
  intro c t h _
  show ((c.tape.write t.write).shift t.shift).blank = m.allTape
  rw [Tape.blank_shift_write, h]

/-- every run keeps to the textbook machine, and its window is what the head has been on -/
theorem shows_after {k : Nat} (h : m.Takes k) :
    ∃ first, Shows (m.after k) (Endless.after m k) first ∧
      Endless.occupied m k = Finset.Ico first (first + (m.after k).tape.visited) := by
  induction k with
  | zero => exact ⟨0, shows_start m, rfl⟩
  | succ k ih =>
    obtain ⟨first, hshows, hocc⟩ := ih (takes_succ_iff.mp h).1
    obtain ⟨t, ht, hnext⟩ := exists_apply_of_takes h
    have hendless : Endless.after m (k + 1) = (Endless.after m k).apply t := by
      show (Endless.step? m (Endless.after m k)).getD _ = _
      rw [hshows.step?_eq ht, Option.getD_some]
    refine ⟨((m.after k).tape.write t.write).slide t.shift first, ?_, ?_⟩
    · rw [hendless, hnext]
      exact hshows.apply t
    · rw [Endless.occupied_succ, hocc, hendless, hnext]
      show insert ((Endless.after m k).position + t.shift.offset) _ =
        Finset.Ico _ (_ + ((((m.after k).tape.write t.write).shift t.shift).visited : Int))
      rw [Tape.window_shift, Tape.head_write, Tape.visited_write, hshows.position_eq]

end Machine

/-! ## the growing tape -/

/-- after `k` transitions the growing tape is the window of the textbook tape from the least to the
greatest position that the head has been on -/
structure IsWindow (m : Machine) (k : Nat) (least greatest offset : Int) : Prop where
  least_occupied : IsLeast (Endless.occupied m k : Set Int) least
  greatest_occupied : IsGreatest (Endless.occupied m k : Set Int) greatest
  offset_eq : offset = -least
  /-- the textbook machine takes all these transitions too -/
  step?_eq : ∀ i < k, Endless.step? m (Endless.after m i) = some (Endless.after m (i + 1))
  state_eq : (m.after k).state = (Endless.after m k).state
  steps_eq : (m.after k).steps = k
  head_eq : ((m.after k).tape.head : Int) = (Endless.after m k).position + offset
  cells_eq : ∀ i < (m.after k).tape.visited,
    (m.after k).tape.cells[i]? = some ((Endless.after m k).tape (i - offset))
  outside_eq : ∀ p : Int, p < -offset ∨ (m.after k).tape.visited - offset ≤ p →
    (Endless.after m k).tape p = m.allTape
  visited_eq_card : (m.after k).tape.visited = (Endless.occupied m k).card
  visited_eq : ((m.after k).tape.visited : Int) = greatest - least + 1
  score_eq : (m.after k).tape.score =
    ∑ p ∈ Endless.occupied m k, ((Endless.after m k).tape p).toNat

/-- **The growing tape simulates the tape without ends**, for every table and as long as the machine
takes transitions. -/
theorem growing_tape_is_window (m : Machine) (k : Nat) (h : m.Takes k) :
    ∃ least greatest offset, IsWindow m k least greatest offset := by
  obtain ⟨first, hshows, hocc⟩ := Machine.shows_after h
  have hpos : 0 < (m.after k).tape.visited :=
    Nat.lt_of_le_of_lt (Nat.zero_le _) (Tape.head_lt_visited _)
  refine ⟨first, first + (m.after k).tape.visited - 1, -first, ?_⟩
  constructor
  case least_occupied =>
    rw [hocc, Finset.coe_Ico]
    exact isLeast_Ico (by omega)
  case greatest_occupied =>
    rw [hocc]
    constructor
    · rw [Finset.mem_coe, Finset.mem_Ico]
      omega
    · intro p hp
      rw [Finset.mem_coe, Finset.mem_Ico] at hp
      omega
  case offset_eq => rfl
  case step?_eq =>
    intro i hi
    have hsucc : m.Takes (i + 1) := fun n hn => h n (by omega)
    obtain ⟨t, ht, _⟩ := Machine.exists_apply_of_takes hsucc
    obtain ⟨_, hshows, _⟩ := Machine.shows_after (Machine.takes_succ_iff.mp hsucc).1
    have hstep := hshows.step?_eq ht
    rw [Endless.after, hstep, Option.getD_some]
  case state_eq => exact hshows.state_eq
  case steps_eq => exact Machine.steps_after h
  case head_eq =>
    rw [hshows.position_eq]
    omega
  case cells_eq =>
    intro i hi
    rw [Tape.getElem?_cells_eq_spread hi first, hshows.tape_eq,
      show (i : Int) - -first = first + i by omega]
  case outside_eq =>
    intro p hp
    rw [hshows.tape_eq, Tape.spread_outside (by omega), Machine.blank_after]
  case visited_eq_card =>
    rw [hocc, Int.card_Ico]
    omega
  case visited_eq => omega
  case score_eq =>
    rw [hocc, hshows.tape_eq]
    exact Tape.score_eq_sum_spread _ _

/-- a machine that grows its tape on the right, then on the left -/
def turner : Machine :=
  ⟨"1RB0RB_1LC1RZ_1LA0LA", Table.ofList 2 [⟨1, .right, 2⟩, ⟨0, .right, 2⟩, ⟨1, .left, 3⟩,
    ⟨1, .right, 0⟩, ⟨1, .left, 1⟩, ⟨0, .left, 1⟩], 0, by decide⟩

theorem growing_tape_is_window_turner :
    turner.Takes 4 ∧ ∃ least greatest offset, IsWindow turner 4 least greatest offset := by
  have h : turner.Takes 4 := by
    intro i hi
    interval_cases i <;> exact ⟨_, rfl⟩
  exact ⟨h, growing_tape_is_window turner 4 h⟩

end Holdout
