import Holdout.Json.Shape
import Holdout.Run.Trace

/-!
# Runs in JSON

Limits, outcomes, faults and snapshots as JSON values, with `toJson` and `ofJson?` for each.
Numbers are read below `2 ^ 64` only.
-/

namespace Holdout

open Json (Value required optional)

namespace Span

def toJson (s : Span) : Value := .record [("secs", .number s.secs), ("nanos", .number s.nanos)]

/-- the first number that does not fit in 32 bits -/
def nanosBound : Nat := 4294967296

/-- the number of nanoseconds is read up to 32 bits, and whole seconds in it are carried over -/
def ofJson? (v : Value) : Option Span :=
  match v.onlyFields? ["secs", "nanos"] with
  | some [secs, nanos] => do
    let secs ← required Value.word? secs
    let nanos ← required (Value.below? nanosBound) nanos
    let span := Span.ofParts secs nanos
    if span.secs < Decimal.wordBound then some span else none
  | _ => none

end Span

namespace Limits

def toJson (l : Limits) : Value :=
  .record [("space", .number l.space), ("time", Value.ofOption Span.toJson l.time),
    ("steps", Value.ofOption .number l.steps)]

def ofJson? (v : Value) : Option Limits :=
  match v.fields? ["space", "time", "steps"] with
  | some [space, time, steps] => do
    let space ← required Value.word? space
    let time ← optional Span.ofJson? time
    let steps ← optional Value.word? steps
    return ⟨space, time, steps⟩
  | _ => none

end Limits

namespace Limit

def word : Limit → String
  | space => "Space"
  | time => "Time"
  | steps => "Steps"

def toJson (l : Limit) : Value := .text l.word

def ofJson? (v : Value) : Option Limit :=
  match v.variant? with
  | some ("Space", content) => if Value.isBare content then some .space else none
  | some ("Time", content) => if Value.isBare content then some .time else none
  | some ("Steps", content) => if Value.isBare content then some .steps else none
  | _ => none

end Limit

namespace Fault

def toJson : Fault → Value
  | symbolOutOfRange state symbol symbols =>
    .record [("SymbolOutOfRange", .record [("state", .number state),
      ("symbol", .number symbol.toNat), ("symbols", .number symbols)])]
  | invalidState state => .record [("InvalidState", .number state)]

def ofFields? (v : Value) : Option Fault :=
  match v.fields? ["state", "symbol", "symbols"] with
  | some [state, symbol, symbols] => do
    let state ← required Value.word? state
    let symbol ← required Value.byte? symbol
    let symbols ← required Value.word? symbols
    return .symbolOutOfRange state symbol symbols
  | _ => none

def ofJson? (v : Value) : Option Fault :=
  match v.variant? with
  | some ("SymbolOutOfRange", some content) => ofFields? content
  | some ("InvalidState", some content) => content.word?.map .invalidState
  | _ => none

end Fault

namespace Outcome

def toJson : Outcome → Value
  | halted score steps =>
    .record [("Halted", .record [("score", .number score), ("steps", .number steps)])]
  | exceeded limit => .record [("ResourceLimitExceeded", limit.toJson)]
  | failed fault => .record [("Error", fault.toJson)]

def ofFields? (v : Value) : Option Outcome :=
  match v.fields? ["score", "steps"] with
  | some [score, steps] => do
    let score ← required Value.word? score
    let steps ← required Value.word? steps
    return .halted score steps
  | _ => none

def ofJson? (v : Value) : Option Outcome :=
  match v.variant? with
  | some ("Halted", some content) => ofFields? content
  | some ("ResourceLimitExceeded", some content) => (Limit.ofJson? content).map .exceeded
  | some ("Error", some content) => (Fault.ofJson? content).map .failed
  | _ => none

end Outcome

namespace Snapshot

def toJson (s : Snapshot) : Value :=
  .record [("tape", Value.ofBytes s.tape), ("head", .number s.head),
    ("visited", .number s.visited)]

def ofJson? (v : Value) : Option Snapshot :=
  match v.fields? ["tape", "head", "visited"] with
  | some [tape, head, visited] => do
    let tape ← required (Value.listOf? Value.byte?) tape
    let head ← required Value.word? head
    let visited ← required Value.word? visited
    return ⟨tape, head, visited⟩
  | _ => none

end Snapshot

def Trace.toJson (kept : List Snapshot) : Value := .list (kept.map Snapshot.toJson)

end Holdout
