import Holdout.Proofs.Endless
import Holdout.Proofs.Table

/-!
# Steps that fail

A step looks its transition up before it changes anything.  It fails where the state has no row or
the symbol under the head is none of the alphabet, it fails the same way every time, and what made
it fail was put there by some entry of the table.

* `Machine.Answers`         the four answers of a step, each with its condition;
* `Machine.step_eq_iff`     a step gives the one whose condition holds;
* `Machine.advance_succ_of_not_moved`   a configuration that a step does not leave stays;
* `Machine.inBatches_eq_iterate`   steps in batches are as many steps in one;
* `Machine.Stems`           the state is the first one or was gone to, and each symbol is the blank or
                            was written, both by entries; kept by every transition (`Stems.apply`);
* `Classified`, `steps_classified`   all of it for every configuration that a machine comes to.
-/

namespace Holdout

namespace Table

theorem get?_eq_none_iff {t : Table} {state : Nat} {symbol : Symbol} :
    t.get? state symbol = none ↔
      ¬((1 ≤ state ∧ state ≤ t.states) ∧ symbol.toNat < t.symbols) := by
  rw [← hasRow_iff, ← isSome_get?_iff, Option.not_isSome_iff_eq_none]

theorem isEmpty_of_states_eq_zero {t : Table} (h : t.states = 0) : t.isEmpty = true := by
  rw [isEmpty, size_eq, h, Nat.zero_mul]
  rfl

end Table

namespace Machine

variable {m : Machine} {c : Config} {k : Nat}

/-! ## one step -/

theorem faultAt_of_lt (h : m.states < c.state) : m.faultAt c = .invalidState c.state := if_pos h

theorem faultAt_of_le (h : c.state ≤ m.states) :
    m.faultAt c = .symbolOutOfRange c.state c.tape.read m.symbols := if_neg (Nat.not_lt.mpr h)

/-- what the next step answers, in the four cases that there are -/
inductive Answers (m : Machine) (c : Config) : Step → Prop
  | halted (h : c.state = haltState) : Answers m c .halted
  | invalidState (h : m.states < c.state) : Answers m c (.stuck (.invalidState c.state))
  | symbolOutOfRange (hrow : 1 ≤ c.state ∧ c.state ≤ m.states)
    (h : m.symbols ≤ c.tape.read.toNat) :
    Answers m c (.stuck (.symbolOutOfRange c.state c.tape.read m.symbols))
  | moved {t : Transition} (h : m.table.get? c.state c.tape.read = some t) :
    Answers m c (.moved (c.apply t))

theorem answers_step (m : Machine) (c : Config) : Answers m c (m.step c) := by
  cases hstep : m.step c with
  | moved next =>
    obtain ⟨t, ht, rfl⟩ := step_eq_moved_iff.mp hstep
    exact .moved ht
  | halted => exact .halted (step_eq_halted_iff.mp hstep)
  | stuck fault =>
    obtain ⟨hstate, hnone, rfl⟩ := step_eq_stuck_iff.mp hstep
    rcases Nat.lt_or_ge m.states c.state with hlt | hle
    · rw [faultAt_of_lt hlt]
      exact .invalidState hlt
    · have hrow : 1 ≤ c.state ∧ c.state ≤ m.states := ⟨Nat.pos_of_ne_zero hstate, hle⟩
      rw [faultAt_of_le hle]
      refine .symbolOutOfRange hrow (Nat.not_lt.mp fun hsymbol => ?_)
      exact Table.get?_eq_none_iff.mp hnone ⟨hrow, hsymbol⟩

theorem Answers.step_eq {s : Step} (h : Answers m c s) : m.step c = s := by
  cases h with
  | halted h => exact step_eq_halted_iff.mpr h
  | invalidState h =>
    have hnone : m.table.get? c.state c.tape.read = none :=
      Table.get?_eq_none_iff.mpr fun hknown => Nat.not_le.mpr h hknown.1.2
    exact step_eq_stuck_iff.mpr ⟨Nat.ne_zero_of_lt h, hnone, (faultAt_of_lt h).symm⟩
  | symbolOutOfRange hrow h =>
    have hnone : m.table.get? c.state c.tape.read = none :=
      Table.get?_eq_none_iff.mpr fun hknown => Nat.not_lt.mpr h hknown.2
    exact step_eq_stuck_iff.mpr ⟨Nat.ne_zero_of_lt hrow.1, hnone, (faultAt_of_le hrow.2).symm⟩
  | moved h => exact step_eq_moved_iff.mpr ⟨_, h, rfl⟩

theorem step_eq_iff {s : Step} : m.step c = s ↔ Answers m c s := by
  refine ⟨fun h => ?_, Answers.step_eq⟩
  rw [← h]
  exact m.answers_step c

theorem step_eq_invalidState_iff {state : Nat} :
    m.step c = .stuck (.invalidState state) ↔ c.state = state ∧ m.states < state := by
  rw [step_eq_iff]
  constructor
  · intro h
    cases h with
    | invalidState hlt => exact ⟨rfl, hlt⟩
  · intro ⟨hstate, hlt⟩
    subst hstate
    exact .invalidState hlt

theorem step_eq_symbolOutOfRange_iff {state symbols : Nat} {symbol : Symbol} :
    m.step c = .stuck (.symbolOutOfRange state symbol symbols) ↔
      c.state = state ∧ (1 ≤ state ∧ state ≤ m.states) ∧ c.tape.read = symbol ∧
        m.symbols = symbols ∧ symbols ≤ symbol.toNat := by
  rw [step_eq_iff]
  constructor
  · intro h
    cases h with
    | symbolOutOfRange hrow hge => exact ⟨rfl, hrow, rfl, rfl, hge⟩
  · intro ⟨hstate, hrow, hread, hsymbols, hge⟩
    subst hstate hread hsymbols
    exact .symbolOutOfRange hrow hge

/-- a step takes a transition if the state has a row and the symbol is one of the alphabet -/
theorem exists_moved (hstate : c.state ≠ haltState) (hrow : c.state ≤ m.states)
    (hsymbol : c.tape.read.toNat < m.symbols) :
    ∃ t, m.table.get? c.state c.tape.read = some t ∧ m.step c = .moved (c.apply t) := by
  have hhas : m.table.hasRow c.state = true :=
    Table.hasRow_iff.mpr ⟨Nat.pos_of_ne_zero hstate, hrow⟩
  obtain ⟨t, ht⟩ := Option.isSome_iff_exists.mp (Table.isSome_get?_iff.mpr ⟨hhas, hsymbol⟩)
  exact ⟨t, ht, step_eq_moved_iff.mpr ⟨t, ht, rfl⟩⟩

/-! ## many steps -/

theorem advance_succ_of_not_moved (h : ∀ next, m.step c ≠ .moved next) (n : Nat) :
    m.advance (n + 1) c = ⟨some (m.step c), c⟩ := by
  rw [advance, advanceFrom]
  cases hstep : m.step c with
  | moved next => exact absurd hstep (h next)
  | halted => rfl
  | stuck fault => rfl

/-- the configuration after batches of steps, each of them up to its first fault -/
def inBatches (m : Machine) (c : Config) (counts : List Nat) : Config :=
  counts.foldl (fun c n => (m.advance n c).config) c

theorem inBatches_eq_iterate (c : Config) (counts : List Nat) :
    m.inBatches c counts = m.pass^[counts.sum] c := by
  induction counts generalizing c with
  | nil => rfl
  | cons n counts ih =>
    show m.inBatches (m.advance n c).config counts = _
    rw [ih, config_advance, List.sum_cons, Nat.add_comm, Function.iterate_add_apply]

/-! ## where states and symbols come from -/

/-- the state is the first one or the next one of an entry, and every symbol on the tape is the blank
or what an entry writes -/
structure Stems (m : Machine) (c : Config) : Prop where
  state : c.state = startState ∨ ∃ e ∈ m.table.entries, e.transition.next = c.state
  cells : ∀ a ∈ c.tape.cells,
    a = m.allTape ∨ ∃ e ∈ m.table.entries, e.transition.write = a
  blank : c.tape.blank = m.allTape

theorem stems_start (m : Machine) : Stems m (Config.start m) where
  state := .inl rfl
  cells := by
    intro a ha
    exact .inl (List.mem_singleton.mp ha)
  blank := rfl

theorem Stems.apply {t : Transition} (h : Stems m c)
    (ht : m.table.get? c.state c.tape.read = some t) : Stems m (c.apply t) where
  state := by
    obtain ⟨e, he, heq⟩ := Table.exists_entry_of_get? ht
    exact .inr ⟨e, he, congrArg Transition.next heq⟩
  cells := by
    intro a ha
    rcases Tape.mem_cells_shift_write ha with hblank | hwrite | ha
    · exact .inl (hblank.trans h.blank)
    · obtain ⟨e, he, heq⟩ := Table.exists_entry_of_get? ht
      exact .inr ⟨e, he, (congrArg Transition.write heq).trans hwrite.symm⟩
    · exact h.cells a ha
  blank := by
    show ((c.tape.write t.write).shift t.shift).blank = m.allTape
    rw [Tape.blank_shift_write]
    exact h.blank

theorem stems_after (m : Machine) (k : Nat) : Stems m (m.after k) :=
  after_induction (stems_start m) (fun _ _ h ht => h.apply ht) k

theorem Stems.of_invalidState (h : Stems m c) (hstate : m.states < c.state) :
    (c.state = 1 ∧ m.table.isEmpty = true) ∨
      ∃ e ∈ m.table.entries, e.transition.next = c.state := by
  rcases h.state with hstart | hentry
  · rw [hstart] at hstate
    have hzero : m.table.states = 0 := Nat.lt_one_iff.mp hstate
    exact .inl ⟨hstart, Table.isEmpty_of_states_eq_zero hzero⟩
  · exact .inr hentry

theorem Stems.of_symbolOutOfRange (h : Stems m c) (hsymbol : m.symbols ≤ c.tape.read.toNat) :
    (∃ e ∈ m.table.entries, e.transition.write = c.tape.read) ∧ c.tape.read ≠ m.allTape := by
  have hne : c.tape.read ≠ m.allTape := by
    intro heq
    rw [heq] at hsymbol
    exact absurd m.allTape_lt (Nat.not_lt.mpr hsymbol)
  exact ⟨(h.cells _ c.tape.read_mem_cells).resolve_left hne, hne⟩

end Machine

/-! ## all configurations -/

/-- the answer of the next step, in the four cases that there are; the configuration stays as it is,
over any number of steps, unless the step takes a transition; batches of steps come to where as many
steps in one come to; and what makes a step fail stems from an entry -/
structure Classified (m : Machine) (c : Config) : Prop where
  halted_iff : m.step c = .halted ↔ c.state = haltState
  invalidState_iff : ∀ state, m.step c = .stuck (.invalidState state) ↔
    c.state = state ∧ m.states < state
  symbolOutOfRange_iff : ∀ state symbol symbols,
    m.step c = .stuck (.symbolOutOfRange state symbol symbols) ↔
      c.state = state ∧ (1 ≤ state ∧ state ≤ m.states) ∧ c.tape.read = symbol ∧
        m.symbols = symbols ∧ symbols ≤ symbol.toNat
  moved : c.state ≠ haltState → c.state ≤ m.states → c.tape.read.toNat < m.symbols →
    ∃ t, m.table.get? c.state c.tape.read = some t ∧
      m.step c = .moved ⟨t.next, (c.tape.write t.write).shift t.shift, c.steps + 1⟩
  stays : (∀ next, m.step c ≠ .moved next) → ∀ n, m.advance (n + 1) c = ⟨some (m.step c), c⟩
  batches : ∀ counts, m.inBatches c counts = (m.advance counts.sum c).config
  invalidState_stems : m.states < c.state → (c.state = 1 ∧ m.table.isEmpty = true) ∨
    ∃ e ∈ m.table.entries, e.transition.next = c.state
  symbolOutOfRange_stems : m.symbols ≤ c.tape.read.toNat →
    (∃ e ∈ m.table.entries, e.transition.write = c.tape.read) ∧ c.tape.read ≠ m.allTape

/-- **Steps are atomic, and their faults say exactly what is wrong**, wherever a machine with any
table has come to.  From there, and so from the start, steps in batches come to where the total
number of steps comes to. -/
theorem steps_classified (m : Machine) (k : Nat) :
    Classified m (m.after k) ∧
      ∀ counts, m.inBatches (m.after k) counts = m.after (k + counts.sum) where
  left :=
    { halted_iff := Machine.step_eq_halted_iff
      invalidState_iff := fun _ => Machine.step_eq_invalidState_iff
      symbolOutOfRange_iff := fun _ _ _ => Machine.step_eq_symbolOutOfRange_iff
      moved := Machine.exists_moved
      stays := Machine.advance_succ_of_not_moved
      batches := by
        intro counts
        rw [Machine.inBatches_eq_iterate, Machine.config_advance]
      invalidState_stems := (m.stems_after k).of_invalidState
      symbolOutOfRange_stems := (m.stems_after k).of_symbolOutOfRange }
  right := by
    intro counts
    rw [Machine.inBatches_eq_iterate, Machine.after_add]

/-- a machine that writes a symbol it cannot read, and comes back to it -/
def scribbler : Machine :=
  ⟨"", Table.ofList 2 [⟨7, .right, 2⟩, Transition.undefined, ⟨0, .left, 1⟩, Transition.undefined], 0,
    Nat.two_pos⟩

/-- after two steps it is stuck, for as many batches as there are -/
theorem steps_classified_scribbler :
    scribbler.step (scribbler.after 2) = .stuck (.symbolOutOfRange 1 7 2) ∧
      (∃ e ∈ scribbler.table.entries, e.transition.write = 7) ∧
      scribbler.inBatches (scribbler.after 0) [1, 3, 0, 2] = scribbler.after 2 := by
  have hfault : scribbler.step (scribbler.after 2) = .stuck (.symbolOutOfRange 1 7 2) := rfl
  obtain ⟨hclassified, _⟩ := steps_classified scribbler 2
  obtain ⟨_, _, hread, hsymbols, hge⟩ := (hclassified.symbolOutOfRange_iff 1 7 2).mp hfault
  rw [← hread, ← hsymbols] at hge
  obtain ⟨hentry, _⟩ := hclassified.symbolOutOfRange_stems hge
  rw [hread] at hentry
  exact ⟨hfault, hentry, (steps_classified scribbler 0).2 [1, 3, 0, 2]⟩

end Holdout
