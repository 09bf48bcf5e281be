import Holdout.Code.Layout
import Holdout.Text.Decimal

/-!
# Where a code breaks off

A block whose length is no multiple of three ends inside a spec.  The report shows the line of the
code that the block ends on, with a mark under the place just after the block.

* `Misfit`         line, column, the line itself and the missing part;
* `Misfit.locate`  the misfit at a position of a code;
* `layout`         the specs of every block, or the misfit of the first block that breaks off;
* `Misfit.report`  six lines of text for a reader.
-/

namespace Holdout.Code

structure Misfit where
  /-- counted from one -/
  line : Nat
  /-- counted from one, in characters -/
  column : Nat
  /-- the whole line of the code -/
  text : List Char
  /-- what should have followed -/
  missing : Part
  deriving DecidableEq

def lastLine (cs : List Char) : List Char := (cs.reverse.takeWhile (· != '\n')).reverse

def firstLine (cs : List Char) : List Char := cs.takeWhile (· != '\n')

namespace Misfit

/-- the misfit just after the first `position` characters of a code -/
def locate (code : List Char) (position : Nat) (missing : Part) : Misfit where
  line := (code.take position).count '\n' + 1
  column := (lastLine (code.take position)).length + 1
  text := lastLine (code.take position) ++ firstLine (code.drop position)
  missing := missing

/-- the line as it is shown: carriage returns are left out -/
def shown (m : Misfit) : List Char := m.text.filter (· != '\r')

/-- what leads up to the mark: a tab under a tab, a space under any other character -/
def lead (m : Misfit) : List Char :=
  (m.shown.take (m.column - 1)).map fun c => if c = '\t' then '\t' else ' '

def reportLines (m : Misfit) : List (List Char) :=
  let line := Decimal.digits m.line
  let margin := line.map fun _ => ' '
  [ margin ++ "--> ".toList ++ line ++ ":".toList ++ Decimal.digits m.column,
    margin ++ " |".toList,
    line ++ " | ".toList ++ m.shown,
    margin ++ " | ".toList ++ m.lead ++ "^---".toList,
    margin ++ " |".toList,
    margin ++ " = expected ".toList ++ m.missing.word.toList ]

def report (m : Misfit) : String := String.ofList (['\n'].intercalate m.reportLines)

end Misfit

/-! ## the layout of a code -/

/-- the specs of every block, the first of which starts at `position` -/
def layoutFrom (code : List Char) : (position : Nat) → List (List Char) →
    Except Misfit (List (List Spec))
  | _, [] => .ok []
  | position, block :: rest =>
    match specs block with
    | .error missing => .error (Misfit.locate code (position + block.length) missing)
    | .ok ss =>
      match layoutFrom code (position + block.length + 1) rest with
      | .error misfit => .error misfit
      | .ok tail => .ok (ss :: tail)

def layout (code : List Char) : Except Misfit (List (List Spec)) :=
  layoutFrom code 0 (blocks code)

theorem length_of_layoutFrom {code : List Char} {position : Nat} {bs : List (List Char)}
    {sss : List (List Spec)} (h : layoutFrom code position bs = .ok sss) :
    sss.length = bs.length := by
  induction bs generalizing position sss with
  | nil => cases h; rfl
  | cons block rest ih =>
    unfold layoutFrom at h
    split at h
    · cases h
    · split at h
      · cases h
      · next tail htail =>
        cases h
        simp [ih htail]

end Holdout.Code
