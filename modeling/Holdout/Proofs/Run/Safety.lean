import Holdout.Proofs.Decoded
import Holdout.Proofs.Run.Ends
import Holdout.Proofs.Tape

/-!
# Decoded machines never fail

A table may send a machine to a state without a row or have it write a symbol that is none of the
alphabet, and then a later step finds no entry.  A table that was read from a code does neither.

* `InRange`               what a configuration of a closed table keeps from step to step;
* `NeverFails`            no step of a machine fails, and so no run of it does;
* `decoded_never_fails`   this is so for every decoded machine.
-/

namespace Holdout

/-- the state and every symbol of a configuration are those of a table with `symbols` symbols and
`states` states, and the head is on a cell -/
structure InRange (symbols states : Nat) (c : Config) : Prop where
  state_le : c.state ≤ states
  cells_lt : ∀ a ∈ c.tape.cells, a.toNat < symbols
  blank_lt : c.tape.blank.toNat < symbols
  cells_ne_nil : c.tape.cells ≠ []
  head_lt : c.tape.head < c.tape.visited

section
variable {m : Machine}

theorem inRange_start (hclosed : m.table.Closed) : InRange m.symbols m.states (Config.start m) where
  state_le := hclosed.states_pos
  cells_lt := by
    intro a ha
    rw [Config.start, Tape.cells_start, List.mem_singleton] at ha
    rw [ha]
    exact m.allTape_lt
  blank_lt := m.allTape_lt
  cells_ne_nil := Tape.cells_ne_nil _
  head_lt := Tape.head_lt_visited _

/-- a transition of a closed table keeps a configuration in range -/
theorem InRange.apply (hclosed : m.table.Closed) {c : Config} {t : Transition}
    (h : InRange m.symbols m.states c) (ht : m.table.get? c.state c.tape.read = some t) :
    InRange m.symbols m.states (c.apply t) where
  state_le := hclosed.next_le ht
  cells_lt := by
    intro a ha
    rcases Tape.mem_cells_shift_write ha with rfl | rfl | ha
    · exact h.blank_lt
    · exact hclosed.write_lt ht
    · exact h.cells_lt a ha
  blank_lt := by
    show ((c.tape.write t.write).shift t.shift).blank.toNat < m.symbols
    rw [Tape.blank_shift_write]
    exact h.blank_lt
  cells_ne_nil := Tape.cells_ne_nil _
  head_lt := Tape.head_lt_visited _

theorem inRange_after (hclosed : m.table.Closed) (k : Nat) :
    InRange m.symbols m.states (m.after k) :=
  Machine.after_induction (inRange_start hclosed) (fun _ _ h ht => h.apply hclosed ht) k

/-- a configuration in range is halted or finds its transition -/
theorem InRange.step_ne_stuck {c : Config} (h : InRange m.symbols m.states c) (fault : Fault) :
    m.step c ≠ .stuck fault := by
  intro hstuck
  obtain ⟨hstate, hnone, _⟩ := Machine.step_eq_stuck_iff.mp hstuck
  have hrow : m.table.hasRow c.state = true :=
    Table.hasRow_iff.mpr ⟨Nat.pos_of_ne_zero hstate, h.state_le⟩
  have hsymbol : c.tape.read.toNat < m.table.symbols := h.cells_lt _ c.tape.read_mem_cells
  have hsome := Table.isSome_get?_iff.mpr ⟨hrow, hsymbol⟩
  rw [hnone] at hsome
  cases hsome

theorem not_endsAt_failed (hclosed : m.table.Closed) {l : Limits} {clock : Clock} {n : Nat}
    {fault : Fault} : ¬ m.EndsAt l clock n (.failed fault) := by
  rintro ⟨hstop, _⟩
  cases Machine.stop?_eq_some_iff.mp hstop with
  | fault _ hstuck => exact (inRange_after hclosed n).step_ne_stuck fault hstuck

end

/-! ## runs -/

/-- no step and no run of a machine over an alphabet of `symbols` symbols fails, whatever the
limits, the clock and the observer -/
structure NeverFails (symbols : Nat) (m : Machine) : Prop where
  symbols_eq : m.symbols = symbols
  inRange : ∀ k, InRange symbols m.states (m.after k)
  step : ∀ k fault, m.step (m.after k) ≠ .stuck fault
  run : ∀ l clock patience fault, m.run l patience clock ≠ some (.failed fault)
  observe : ∀ {σ : Type} (observer : σ → Config → σ) l clock patience first last fault,
    m.observe l observer patience first clock ≠ some (.failed fault, last)
  trace : ∀ l clock most patience kept fault,
    m.trace l most patience clock ≠ some (.failed fault, kept)

theorem neverFails_of_closed {m : Machine} (hclosed : m.table.Closed) :
    NeverFails m.symbols m where
  symbols_eq := rfl
  inRange := inRange_after hclosed
  step := fun k => (inRange_after hclosed k).step_ne_stuck
  run := by
    intro l clock patience fault h
    obtain ⟨n, _, hn⟩ := Machine.run_eq_some_iff.mp h
    exact not_endsAt_failed hclosed hn
  observe := by
    intro σ observer l clock patience first last fault h
    obtain ⟨n, _, hn, _⟩ := (Machine.observe_eq_some_iff observer).mp h
    exact not_endsAt_failed hclosed hn
  trace := by
    intro l clock most patience kept fault h
    obtain ⟨n, _, hn⟩ := Machine.exists_endsAt_of_trace h
    exact not_endsAt_failed hclosed hn

/-- decoded machines never fail -/
theorem decoded_never_fails {symbols : Nat} {m : Machine} (h : Decoded symbols m) :
    NeverFails symbols m := by
  rw [← h.symbols_eq]
  exact neverFails_of_closed h.closed

/-- a machine with a placeholder, decoded with white space around its code and put on another
tape -/
theorem decoded_never_fails_translatedCycler : ∃ m m', decode " 1RB---_1LB0RB\n" 2 = .ok m ∧
    m.withAllTape 1 = .ok m' ∧ NeverFails 2 m' := by
  obtain ⟨m, hm⟩ : ∃ m, decode " 1RB---_1LB0RB\n" 2 = .ok m := ⟨_, rfl⟩
  have hsymbols : m.symbols = 2 := (Decoded.decode hm).symbols_eq
  have hblank : (1 : Symbol).toNat < m.table.symbols := by
    show 1 < m.symbols
    rw [hsymbols]
    decide
  have hm' : m.withAllTape 1 = .ok ⟨m.code, m.table, 1, hblank⟩ :=
    Machine.ofTable_eq_ok_iff.mpr ⟨rfl, rfl, rfl⟩
  exact ⟨m, _, hm, hm', decoded_never_fails (.withAllTape (.decode hm) hm')⟩

end Holdout
