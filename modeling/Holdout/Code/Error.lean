import Holdout.Code.Misfit
import Holdout.Text.Quoted
import Holdout.Transition

/-!
# Why a code is refused

`DecodeError` lists the causes, `DecodeError.message` gives each its wording.
-/

namespace Holdout

inductive DecodeError where
  /-- the alphabet is empty or larger than the ten digits -/
  | alphabetSize (symbols : Nat)
  /-- a block ends inside a spec -/
  | misfit (place : Code.Misfit)
  /-- a jump names a state past the last block -/
  | stateOrder (letter : Char) (states : Nat)
  /-- a block does not have one spec per symbol -/
  | blockWidth (state found expected : Nat)
  | invalidWrite (state : Nat) (found : Char)
  | invalidMove (state : Nat) (found : Char)
  | invalidJump (state : Nat) (found : Char)
  /-- the blank is no symbol of the alphabet -/
  | invalidBlank (blank : Symbol) (symbols : Nat)
  deriving DecidableEq

namespace DecodeError

/-- the largest alphabet of the notation: one decimal digit per symbol -/
def maxSymbols : Nat := 10

/-- a complaint about one character of one state -/
def badCharacter (kind : String) (found : Char) (state : Nat) : String :=
  "Incorrect machine code format: wrong " ++ kind ++ " instruction "
    ++ String.ofList (Text.quotedChar found) ++ " in state " ++ String.singleton (stateName state)

def message : DecodeError → String
  | alphabetSize symbols =>
    "Alphabet size must be between 1 and " ++ Decimal.text maxSymbols ++ ", got "
      ++ Decimal.text symbols
  | misfit place => "Machine code syntax error: " ++ place.report
  | stateOrder letter states =>
    "States must be named in alphabetical order: jump to "
      ++ String.ofList (Text.quotedChar letter) ++ " but only " ++ Decimal.text states
      ++ " states are declared"
  | blockWidth state found expected =>
    "State " ++ String.singleton (stateName state) ++ " declares " ++ Decimal.text found
      ++ " transitions, expected " ++ Decimal.text expected
  | invalidWrite state found => badCharacter "write" found state
  | invalidMove state found => badCharacter "moving" found state
  | invalidJump state found => badCharacter "jump" found state ++ ", not a capital letter"
  | invalidBlank blank symbols =>
    "Tape symbol " ++ Decimal.text blank.toNat ++ " is outside an alphabet of "
      ++ Decimal.text symbols ++ " symbols"

end DecodeError

end Holdout
