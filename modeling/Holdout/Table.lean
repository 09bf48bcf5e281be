import Holdout.Transition

/-!
# Transition tables

A table holds one row per working state and one transition per symbol, row after row.

* `Table.ofList`   the table of a list of transitions, its last row filled up with
                   `Transition.undefined`;
* `Table.get?`     the transition of a state on a symbol;
* `Table.row?`     the transitions of one state;
* `Table.chunks`   a list cut into pieces of one width;
* `Table.rows`     the pieces of the transitions, which are the rows of all states in order;
* `Table.entries`  every entry with its state and symbol, row after row.

The alphabet is never empty and every row is full: both facts are fields of the type.
-/

namespace Holdout

structure Table where
  symbols : Nat
  /-- the transitions, state by state and in symbol order within a state -/
  transitions : Array Transition
  symbols_pos : 0 < symbols
  full : transitions.size % symbols = 0
  deriving DecidableEq

namespace Table

/-- how many transitions the last row of a list still lacks -/
def lacking (symbols count : Nat) : Nat := (symbols - count % symbols) % symbols

theorem add_lacking_mod (symbols count : Nat) (h : 0 < symbols) :
    (count + lacking symbols count) % symbols = 0 := by
  unfold lacking
  rcases Nat.eq_zero_or_pos (count % symbols) with h0 | h0
  · simp [h0, Nat.mod_self]
  · have hlt : count % symbols < symbols := Nat.mod_lt _ h
    rw [Nat.mod_eq_of_lt (show symbols - count % symbols < symbols by omega), Nat.add_mod,
      Nat.mod_eq_of_lt (show symbols - count % symbols < symbols by omega)]
    rw [show count % symbols + (symbols - count % symbols) = symbols by omega, Nat.mod_self]

/-- the table of a list of transitions; an empty alphabet counts as one symbol -/
def ofList (symbols : Nat) (ts : List Transition) : Table where
  symbols := max symbols 1
  transitions :=
    (ts ++ List.replicate (lacking (max symbols 1) ts.length) Transition.undefined).toArray
  symbols_pos := by omega
  full := by
    simp only [List.size_toArray, List.length_append, List.length_replicate]
    exact add_lacking_mod _ _ (by omega)

def states (t : Table) : Nat := t.transitions.size / t.symbols

def size (t : Table) : Nat := t.transitions.size

def isEmpty (t : Table) : Bool := t.size == 0

theorem symbols_ofList (symbols : Nat) (ts : List Transition) :
    (ofList symbols ts).symbols = max symbols 1 := rfl

theorem size_eq (t : Table) : t.size = t.states * t.symbols := by
  have h := Nat.div_add_mod t.transitions.size t.symbols
  rw [t.full, Nat.add_zero, Nat.mul_comm] at h
  exact h.symm

def hasRow (t : Table) (state : Nat) : Bool := 0 < state && state ≤ t.states

theorem hasRow_iff {t : Table} {state : Nat} :
    t.hasRow state = true ↔ 1 ≤ state ∧ state ≤ t.states := by
  simp [hasRow, Nat.succ_le_iff]

/-- the transition of a state on a symbol, if the state has a row and the symbol is one of the
alphabet -/
def get? (t : Table) (state : Nat) (symbol : Symbol) : Option Transition :=
  if t.hasRow state && symbol.toNat < t.symbols then
    t.transitions[(state - 1) * t.symbols + symbol.toNat]?
  else none

/-- the row that starts after `i` full rows -/
def rowAt (t : Table) (i : Nat) : List Transition :=
  (t.transitions.extract (i * t.symbols) (i * t.symbols + t.symbols)).toList

def row? (t : Table) (state : Nat) : Option (List Transition) :=
  if t.hasRow state then some (t.rowAt (state - 1)) else none

/-- the rest of a piece that has room for some more, and the pieces of one width after it -/
def cut {α : Type} (width : Nat) : (room : Nat) → List α → List α × List (List α)
  | _, [] => ([], [])
  | 0, x :: xs =>
    let (piece, later) := cut width (width - 1) xs
    ([], (x :: piece) :: later)
  | room + 1, x :: xs =>
    let (piece, later) := cut width room xs
    (x :: piece, later)

/-- the pieces of one width that a list is made of; the last one may be shorter -/
def chunks {α : Type} (width : Nat) (xs : List α) : List (List α) := (cut width 0 xs).2

def rows (t : Table) : List (Nat × List Transition) :=
  (chunks t.symbols t.transitions.toList).zipIdx.map fun (row, i) => (i + 1, row)

/-- one transition with its place in the table -/
structure Entry where
  state : Nat
  /-- the column, as a byte -/
  symbol : Symbol
  transition : Transition
  deriving DecidableEq

/-- the entries of one row; columns past the byte range start again at `0` -/
def rowEntries (state : Nat) (row : List Transition) : List Entry :=
  row.zipIdx.map fun (t, column) => ⟨state, UInt8.ofNat column, t⟩

def entries (t : Table) : List Entry := t.rows.flatMap fun (state, row) => rowEntries state row

end Table

end Holdout
