/-!
# Symbols, states and transitions

A machine works on symbols (bytes) and states (numbers).  State `0` is the halted state, state `1`
is the state every run starts in, and the working states of a machine with `n` rows are `1, …, n`.

* `stateName`    the letter of a state: `Z` for the halted state, `A, …, Y` for `1, …, 25`;
* `Transition`   what to write, where to move and which state comes next;
* `Transition.undefined`   what a missing transition means: write `0`, move right, halt.
-/

namespace Holdout

/-- what one cell of a tape holds -/
abbrev Symbol := UInt8

def haltState : Nat := 0

def startState : Nat := 1

/-- the states up to this one have a letter of their own -/
def namedStates : Nat := 25

def haltLetter : Char := 'Z'

/-- the letter of a state; working states past the twenty-fifth share a question mark -/
def stateName (state : Nat) : Char :=
  if state = haltState then haltLetter
  else if state ≤ namedStates then Char.ofNat ('A'.toNat + (state - 1))
  else '?'

theorem stateName_of_lt {state : Nat} (h : namedStates < state) : stateName state = '?' := by
  have h0 : state ≠ haltState := by simp only [namedStates, haltState] at *; omega
  simp [stateName, h0, Nat.not_le.mpr h]

/-! ## directions -/

inductive Direction where
  | left
  | right
  deriving DecidableEq, Inhabited

def Direction.letter : Direction → Char
  | .left => 'L'
  | .right => 'R'

/-- the number of a move in numeric dumps -/
def Direction.code : Direction → Nat
  | .right => 0
  | .left => 1

def Direction.word : Direction → String
  | .left => "Left"
  | .right => "Right"

/-! ## transitions -/

structure Transition where
  write : Symbol
  shift : Direction
  next : Nat
  deriving DecidableEq, Inhabited

/-- the meaning of a missing transition, the same as an explicit `0RZ` -/
def Transition.undefined : Transition := ⟨0, .right, haltState⟩

def Transition.isHalt (t : Transition) : Bool := t.next == haltState

def Transition.isUndefined (t : Transition) : Bool := t == Transition.undefined

theorem Transition.isHalt_iff {t : Transition} : t.isHalt = true ↔ t.next = haltState := by
  simp [isHalt]

theorem Transition.isUndefined_iff {t : Transition} :
    t.isUndefined = true ↔ t = Transition.undefined := by
  simp [isUndefined]

end Holdout
