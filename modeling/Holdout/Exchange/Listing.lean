import Holdout.Json.Shape
import Holdout.Listing.Entry

/-!
# Listing entries in JSON
-/

namespace Holdout.Listing.Entry

open Json (Value required optional)

def toJson (e : Entry) : Value :=
  .record [("name", Value.ofOption .text e.name), ("code", .text e.code),
    ("symbols", Value.ofOption .number e.symbols), ("line", .number e.line)]

def ofJson? (v : Value) : Option Entry :=
  match v.fields? ["name", "code", "symbols", "line"] with
  | some [name, code, symbols, line] => do
    let name ← optional Value.text? name
    let code ← required Value.text? code
    let symbols ← optional Value.word? symbols
    let line ← required Value.word? line
    return ⟨name, code, symbols, line⟩
  | _ => none

end Holdout.Listing.Entry
