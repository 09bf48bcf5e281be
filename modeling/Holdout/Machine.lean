import Holdout.Code.Error
import Holdout.Table

/-!
# Machines

A machine is a table with the code it was written in and the symbol that every cell of a fresh
tape holds.  That symbol belongs to the alphabet, which the type records.

* `Machine.ofTable`       a machine from a table, if the blank fits;
* `Machine.withAllTape`   the same machine on another fresh tape;
* `Machine.description`   the code and the table in numbers.
-/

namespace Holdout

structure Machine where
  code : String
  table : Table
  allTape : Symbol
  allTape_lt : allTape.toNat < table.symbols
  deriving DecidableEq

/-- what a tape holds when nothing is said -/
def defaultBlank : Symbol := 0

namespace Machine

def ofTable (code : String) (table : Table) (blank : Symbol) : Except DecodeError Machine :=
  if h : blank.toNat < table.symbols then .ok ⟨code, table, blank, h⟩
  else .error (.invalidBlank blank table.symbols)

def withAllTape (m : Machine) (blank : Symbol) : Except DecodeError Machine :=
  ofTable m.code m.table blank

def states (m : Machine) : Nat := m.table.states

def symbols (m : Machine) : Nat := m.table.symbols

theorem ofTable_eq_ok_iff {code : String} {table : Table} {blank : Symbol} {m : Machine} :
    ofTable code table blank = .ok m ↔
      m.code = code ∧ m.table = table ∧ m.allTape = blank := by
  unfold ofTable
  obtain ⟨code', table', blank', h'⟩ := m
  split
  · simp only [Except.ok.injEq, mk.injEq]
    constructor <;> (rintro ⟨rfl, rfl, rfl⟩; exact ⟨rfl, rfl, rfl⟩)
  · next h =>
    simp only [reduceCtorEq, false_iff]
    rintro ⟨rfl, rfl, rfl⟩
    exact h h'

/-! ## description -/

def numbers (t : Transition) : String :=
  "[" ++ Decimal.text t.write.toNat ++ ", " ++ Decimal.text t.shift.code ++ ", "
    ++ Decimal.text t.next ++ "]"

/-- a row of the table, with a line feed -/
def rowLine (row : List Transition) : String :=
  "[" ++ String.intercalate ", " (row.map numbers) ++ "]\n"

def description (m : Machine) : String :=
  "TM code: " ++ m.code ++ "\nComputer readable TM:\n"
    ++ String.join (m.table.rows.map fun (_, row) => rowLine row)

end Machine

end Holdout
