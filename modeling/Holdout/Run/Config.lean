import Holdout.Machine
import Holdout.Tape

/-!
# Configurations and steps

* `Config`          the state, the tape and the number of transitions taken so far;
* `Config.start`    the first state on a fresh tape;
* `Machine.move`    takes one transition: write, move, change state;
* `Machine.step`    the same, but a halted configuration stays as it is;
* `Machine.advance` any number of steps, up to the first fault.

A step fails only where the table has no entry, and then `Fault` says why.
-/

namespace Holdout

inductive Fault where
  /-- the symbol under the head is none of the alphabet -/
  | symbolOutOfRange (state : Nat) (symbol : Symbol) (symbols : Nat)
  /-- the state has no row -/
  | invalidState (state : Nat)
  deriving DecidableEq

def Fault.message : Fault → String
  | .symbolOutOfRange state symbol symbols =>
    "Symbol " ++ Decimal.text symbol.toNat ++ " read in state "
      ++ String.singleton (stateName state) ++ " is outside an alphabet of "
      ++ Decimal.text symbols ++ " symbols"
  | .invalidState state =>
    "State " ++ Decimal.text state ++ " is not part of the transition table"

structure Config where
  state : Nat
  tape : Tape
  /-- the number of transitions taken -/
  steps : Nat
  deriving DecidableEq

/-- the first state on one cell of the fresh tape -/
def Config.start (m : Machine) : Config := ⟨startState, Tape.start m.allTape, 0⟩

def Config.isHalted (c : Config) : Bool := c.state == haltState

theorem Config.isHalted_iff {c : Config} : c.isHalted = true ↔ c.state = haltState := by
  simp [isHalted]

def Config.apply (c : Config) (t : Transition) : Config :=
  ⟨t.next, (c.tape.write t.write).shift t.shift, c.steps + 1⟩

inductive Step where
  | moved (next : Config)
  | halted
  | stuck (fault : Fault)
  deriving DecidableEq

namespace Machine

def faultAt (m : Machine) (c : Config) : Fault :=
  if m.states < c.state then .invalidState c.state
  else .symbolOutOfRange c.state c.tape.read m.symbols

def move (m : Machine) (c : Config) : Except Fault Config :=
  match m.table.get? c.state c.tape.read with
  | some t => .ok (c.apply t)
  | none => .error (m.faultAt c)

def step (m : Machine) (c : Config) : Step :=
  if c.isHalted then .halted
  else
    match m.move c with
    | .ok next => .moved next
    | .error fault => .stuck fault

theorem step_of_isHalted {m : Machine} {c : Config} (h : c.isHalted = true) :
    m.step c = .halted := by
  simp [step, h]

/-- a list of steps seen from its end: the last step and the configuration it left -/
structure Advance where
  last : Option Step
  config : Config

/-- takes `n` steps but none after a fault; `last` is the step before -/
def advanceFrom (m : Machine) : (n : Nat) → Advance → Advance
  | 0, a => a
  | n + 1, a =>
    match m.step a.config with
    | .moved next => advanceFrom m n ⟨some (.moved next), next⟩
    | .halted => ⟨some .halted, a.config⟩
    | .stuck fault => ⟨some (.stuck fault), a.config⟩

/-- takes `n` steps but none after a fault; further steps of a halted configuration change
nothing and are left out -/
def advance (m : Machine) (n : Nat) (c : Config) : Advance := advanceFrom m n ⟨none, c⟩

end Machine

end Holdout
