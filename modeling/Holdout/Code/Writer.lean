import Holdout.Code.Layout
import Holdout.Table
import Holdout.Text.Decimal

/-!
# Writing tables as codes

* `writeSpec`    a transition as the symbol written, the letter of the move and the letter of the
                 next state, or the placeholder for an undefined transition;
* `encode`       the rows of a table joined by underscores.

Only writes up to nine and states up to the twenty-fifth have a spec of three characters that
reads back.
-/

namespace Holdout.Code

def writeSpec (t : Transition) : List Char :=
  if t.isUndefined then placeholder
  else Decimal.digits t.write.toNat ++ [t.shift.letter, stateName t.next]

def writeBlock (row : List Transition) : List Char := row.flatMap writeSpec

def encodeChars (t : Table) : List Char :=
  [separator].intercalate (t.rows.map fun (_, row) => writeBlock row)

def encode (t : Table) : String := String.ofList (encodeChars t)

theorem writeSpec_undefined : writeSpec Transition.undefined = placeholder := rfl

end Holdout.Code
