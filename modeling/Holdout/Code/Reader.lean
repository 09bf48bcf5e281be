import Holdout.Code.Writer
import Holdout.Machine
import Holdout.Text.Blank

/-!
# Reading codes

Reading goes through a code in layers, and the first layer that finds a fault decides the error:
the alphabet size, the layout, the order of the state letters over the whole code, then block by
block the number of specs and the characters of each spec.

* `letterState?`   the state that a capital letter names;
* `checkOrder`     refuses a jump to a letter past the last block;
* `readSpec`       the transition of a spec;
* `parseTable`     the table of a code;
* `decode`         the machine of a code.
-/

namespace Holdout.Code

/-! ## characters -/

/-- the state that a capital letter names: `Z` halts, `A, …, Y` are the first twenty-five -/
def letterState? (c : Char) : Option Nat :=
  if c = haltLetter then some haltState
  else if 'A' ≤ c && c ≤ 'Y' then some (c.toNat - 'A'.toNat + 1)
  else none

/-- the symbol that a digit names, if the alphabet has it -/
def digitSymbol? (symbols : Nat) (c : Char) : Option Symbol :=
  if c.isDigit && c.toNat - '0'.toNat < symbols then some (UInt8.ofNat (c.toNat - '0'.toNat))
  else none

def letterDirection? (c : Char) : Option Direction :=
  if c = 'R' then some .right else if c = 'L' then some .left else none

theorem letterDirection?_letter (d : Direction) : letterDirection? d.letter = some d := by
  cases d <;> rfl

/-! ## the order of the states -/

/-- the greatest state that one of the characters names, `0` if there is none -/
def lastNamed (jumps : List Char) : Nat :=
  jumps.foldr (fun c last => max ((letterState? c).getD haltState) last) haltState

/-- refuses jumps past the last of the states -/
def checkOrder (jumps : List Char) (states : Nat) : Except DecodeError Unit :=
  if states < lastNamed jumps then .error (.stateOrder (stateName (lastNamed jumps)) states)
  else .ok ()

/-! ## specs, blocks and tables -/

/-- the transition of a spec in the block of a state -/
def readSpec (symbols state : Nat) : Spec → Except DecodeError Transition
  | .undefined => .ok Transition.undefined
  | .instruction write shift jump =>
    match digitSymbol? symbols write with
    | none => .error (.invalidWrite state write)
    | some symbol =>
      match letterDirection? shift with
      | none => .error (.invalidMove state shift)
      | some direction =>
        match letterState? jump with
        | none => .error (.invalidJump state jump)
        | some next => .ok ⟨symbol, direction, next⟩

/-- the transitions of a list of specs, or the first error -/
def readSpecs (symbols state : Nat) (ss : List Spec) : Except DecodeError (List Transition) :=
  ss.mapM (readSpec symbols state)

def readBlock (symbols state : Nat) (ss : List Spec) : Except DecodeError (List Transition) :=
  if ss.length = symbols then readSpecs symbols state ss
  else .error (.blockWidth state ss.length symbols)

/-- the rows of the blocks from a state on -/
def readBlocks (symbols : Nat) : (state : Nat) → List (List Spec) →
    Except DecodeError (List Transition)
  | _, [] => .ok []
  | state, ss :: rest => do
    let row ← readBlock symbols state ss
    let later ← readBlocks symbols (state + 1) rest
    return row ++ later

/-- the jump characters of all specs -/
def jumps (sss : List (List Spec)) : List Char := sss.flatten.filterMap Spec.jump?

def tableOfSpecs (symbols : Nat) (sss : List (List Spec)) : Except DecodeError Table := do
  checkOrder (jumps sss) sss.length
  let ts ← readBlocks symbols startState sss
  return Table.ofList symbols ts

def parseTrimmed (code : List Char) (symbols : Nat) : Except DecodeError Table :=
  if symbols = 0 || DecodeError.maxSymbols < symbols then .error (.alphabetSize symbols)
  else
    match layout code with
    | .error misfit => .error (.misfit misfit)
    | .ok sss => tableOfSpecs symbols sss

/-- the table of a code, white space around it aside -/
def parseTable (code : String) (symbols : Nat) : Except DecodeError Table :=
  parseTrimmed (Text.trim code.toList) symbols

end Holdout.Code

namespace Holdout

/-- the machine of a code on a tape of blanks; it keeps the code without the white space around -/
def decodeOn (code : String) (symbols : Nat) (blank : Symbol) : Except DecodeError Machine := do
  let table ← Code.parseTable code symbols
  Machine.ofTable (Text.trimString code) table blank

def decode (code : String) (symbols : Nat) : Except DecodeError Machine :=
  decodeOn code symbols defaultBlank

end Holdout
