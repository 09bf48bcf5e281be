/-!
# Blocks and specs

A machine code is a list of blocks joined by underscores, and a block is a list of specs of three
characters.  The layout gives no meaning to the characters yet.

* `Spec`         a placeholder `---`, or what is written, where the head moves and which state
                 comes next, as characters;
* `specs`        cuts a block into specs from its left end, or names the part that the broken last
                 spec lacks;
* `blocks`       splits a code at its underscores.
-/

namespace Holdout.Code

def separator : Char := '_'

/-- three characters of a block -/
inductive Spec where
  | undefined
  | instruction (write shift jump : Char)
  deriving DecidableEq

def placeholder : List Char := ['-', '-', '-']

/-- three characters make a placeholder or an instruction -/
def Spec.ofChars (write shift jump : Char) : Spec :=
  if [write, shift, jump] = placeholder then .undefined else .instruction write shift jump

def Spec.jump? : Spec → Option Char
  | .undefined => none
  | .instruction _ _ jump => some jump

/-- the part of a spec at which a block breaks off -/
inductive Part where
  | shift
  | jump
  deriving DecidableEq

def Part.word : Part → String
  | .shift => "shift"
  | .jump => "jump"

/-! ## cutting -/

/-- the specs of a block, or the part that its last spec lacks -/
def specs : List Char → Except Part (List Spec)
  | [] => .ok []
  | [_] => .error .shift
  | [_, _] => .error .jump
  | write :: shift :: jump :: rest =>
    match specs rest with
    | .ok ss => .ok (Spec.ofChars write shift jump :: ss)
    | .error part => .error part

theorem specs_cons (write shift jump : Char) (rest : List Char) :
    specs (write :: shift :: jump :: rest) =
      (specs rest).map (Spec.ofChars write shift jump :: ·) := by
  rw [specs]
  cases specs rest <;> rfl

/-- the blocks of a code; the empty code has one empty block -/
def blocks (code : List Char) : List (List Char) := code.splitOn separator

theorem blocks_ne_nil (code : List Char) : blocks code ≠ [] := List.splitOn_ne_nil _ _

end Holdout.Code
