import Holdout.Machine
import Holdout.Reach

/-!
# Facts read off a table

* `Analysis.ofTable`     the facts of a table;
* `Analysis.canHalt`     some transition halts;
* `Analysis.description` all facts on one line.

None of them needs a run.
-/

namespace Holdout

structure Analysis where
  haltTransitions : Nat
  /-- how many transitions are the undefined one -/
  undefinedTransitions : Nat
  /-- the letters of the working states that the first state does not lead to -/
  unreachableStates : List Char
  /-- the direction of all moves, if they agree -/
  singleDirection : Option Direction
  deriving DecidableEq

/-- the direction that all of a list are, if there is one -/
def commonDirection? : List Direction → Option Direction
  | [] => none
  | d :: ds => if ds.all (· == d) then some d else none

theorem commonDirection?_eq_some_iff {ds : List Direction} {d : Direction} :
    commonDirection? ds = some d ↔ ds ≠ [] ∧ ∀ x ∈ ds, x = d := by
  cases ds with
  | nil => simp [commonDirection?]
  | cons y ys =>
    simp only [commonDirection?, List.all_eq_true, beq_iff_eq, ne_eq, reduceCtorEq,
      not_false_eq_true, List.mem_cons, forall_eq_or_imp, true_and]
    constructor
    · intro h
      split at h
      · next hall => cases h; exact ⟨rfl, hall⟩
      · cases h
    · rintro ⟨rfl, hall⟩
      rw [if_pos hall]

namespace Analysis

def ofTable (t : Table) : Analysis where
  haltTransitions := t.entries.countP fun e => e.transition.isHalt
  undefinedTransitions := t.entries.countP fun e => e.transition.isUndefined
  unreachableStates := t.unreached.map stateName
  singleDirection := commonDirection? (t.entries.map fun e => e.transition.shift)

def canHalt (a : Analysis) : Bool := 0 < a.haltTransitions

/-- a direction that may be absent, in words -/
def directionWords : Option Direction → String
  | none => "None"
  | some d => "Some(" ++ d.word ++ ")"

def description (a : Analysis) : String :=
  "Analysis \x7b halt_transitions: " ++ Decimal.text a.haltTransitions
    ++ ", undefined_transitions: " ++ Decimal.text a.undefinedTransitions
    ++ ", unreachable_states: ["
    ++ String.intercalate ", "
        (a.unreachableStates.map fun c => String.ofList (Text.quotedChar c))
    ++ "], single_direction: " ++ directionWords a.singleDirection ++ " \x7d"

end Analysis

def Machine.analysis (m : Machine) : Analysis := Analysis.ofTable m.table

end Holdout
