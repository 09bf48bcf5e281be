import Holdout.Analysis
import Holdout.Json.Shape

/-!
# Machines in JSON

Directions, transitions and analyses as JSON values.  For every exchanged type, `toJson` gives the
value and `ofJson?` takes it apart again; fields are written in the order of the structure, a choice
without content is its name and one with content a record of one field.
-/

namespace Holdout

open Json (Value required optional)

namespace Direction

def toJson (d : Direction) : Value := .text d.word

def ofJson? (v : Value) : Option Direction :=
  match v.variant? with
  | some ("Left", content) => if Value.isBare content then some .left else none
  | some ("Right", content) => if Value.isBare content then some .right else none
  | _ => none

end Direction

namespace Transition

def toJson (t : Transition) : Value :=
  .record [("write", .number t.write.toNat), ("shift", t.shift.toJson), ("next", .number t.next)]

def ofJson? (v : Value) : Option Transition :=
  match v.fields? ["write", "shift", "next"] with
  | some [write, shift, next] => do
    let write ← required Value.byte? write
    let shift ← required Direction.ofJson? shift
    let next ← required Value.word? next
    return ⟨write, shift, next⟩
  | _ => none

end Transition

namespace Analysis

def toJson (a : Analysis) : Value :=
  .record [
    ("halt_transitions", .number a.haltTransitions),
    ("undefined_transitions", .number a.undefinedTransitions),
    ("unreachable_states",
      .list (a.unreachableStates.map fun c => .text (String.singleton c))),
    ("single_direction", Value.ofOption Direction.toJson a.singleDirection)]

def ofJson? (v : Value) : Option Analysis :=
  match v.fields? ["halt_transitions", "undefined_transitions", "unreachable_states",
      "single_direction"] with
  | some [halts, undefineds, unreachables, direction] => do
    let halts ← required Value.word? halts
    let undefineds ← required Value.word? undefineds
    let unreachables ← required (Value.listOf? Value.char?) unreachables
    let direction ← optional Direction.ofJson? direction
    return ⟨halts, undefineds, unreachables, direction⟩
  | _ => none

end Analysis

end Holdout
