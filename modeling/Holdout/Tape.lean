import Holdout.Transition

/-!
# Growing tapes

A tape holds the cells that its head has been on; a step past either end adds one blank cell.
The cells are kept around the head (`left` with the nearest one first), so that a step takes
constant time.

* `Tape.start`     one blank cell under the head;
* `Tape.cells`     the cells from left to right, `Tape.head` the index of the head in them;
* `Tape.visited`   the number of cells, kept with the tape and never counted again;
* `Tape.shift`     moves the head by one cell;
* `Tape.score`     the sum of the cells.
-/

namespace Holdout

structure Tape where
  /-- the cells left of the head, nearest first -/
  left : List Symbol
  read : Symbol
  /-- the cells right of the head, nearest first -/
  right : List Symbol
  /-- what a cell holds before the head first comes to it -/
  blank : Symbol
  /-- the number of cells -/
  visited : Nat
  visited_eq : visited = left.length + 1 + right.length
  deriving DecidableEq

namespace Tape

def start (blank : Symbol) : Tape where
  left := []
  read := blank
  right := []
  blank := blank
  visited := 1
  visited_eq := rfl

/-- the index of the head in the cells -/
def head (t : Tape) : Nat := t.left.length

/-- the cells from left to right -/
def cells (t : Tape) : List Symbol := t.left.reverse ++ t.read :: t.right

def score (t : Tape) : Nat := t.cells.foldl (fun sum s => sum + s.toNat) 0

def write (t : Tape) (symbol : Symbol) : Tape := { t with read := symbol }

theorem visited_of_left_nil {t : Tape} (h : t.left = []) :
    t.visited + 1 = ([] : List Symbol).length + 1 + (t.read :: t.right).length := by
  have := t.visited_eq
  simp only [h, List.length_cons, List.length_nil] at this ⊢
  omega

theorem visited_of_left_cons {t : Tape} {s : Symbol} {rest : List Symbol}
    (h : t.left = s :: rest) : t.visited = rest.length + 1 + (t.read :: t.right).length := by
  have := t.visited_eq
  simp only [h, List.length_cons] at this ⊢
  omega

theorem visited_of_right_nil {t : Tape} (h : t.right = []) :
    t.visited + 1 = (t.read :: t.left).length + 1 + ([] : List Symbol).length := by
  have := t.visited_eq
  simp only [h, List.length_cons, List.length_nil] at this ⊢
  omega

theorem visited_of_right_cons {t : Tape} {s : Symbol} {rest : List Symbol}
    (h : t.right = s :: rest) : t.visited = (t.read :: t.left).length + 1 + rest.length := by
  have := t.visited_eq
  simp only [h, List.length_cons] at this ⊢
  omega

def shift (t : Tape) : Direction → Tape
  | .left =>
    match h : t.left with
    | [] => ⟨[], t.blank, t.read :: t.right, t.blank, t.visited + 1, visited_of_left_nil h⟩
    | s :: rest => ⟨rest, s, t.read :: t.right, t.blank, t.visited, visited_of_left_cons h⟩
  | .right =>
    match h : t.right with
    | [] => ⟨t.read :: t.left, t.blank, [], t.blank, t.visited + 1, visited_of_right_nil h⟩
    | s :: rest => ⟨t.read :: t.left, s, rest, t.blank, t.visited, visited_of_right_cons h⟩

/-! ## the view by cells -/

theorem ext_parts {t u : Tape} (hl : t.left = u.left) (hc : t.read = u.read)
    (hr : t.right = u.right) (hb : t.blank = u.blank) : t = u := by
  obtain ⟨l, c, r, b, v, hv⟩ := t
  obtain ⟨l', c', r', b', v', hv'⟩ := u
  simp only at hl hc hr hb
  subst hl hc hr hb
  have : v = v' := by omega
  subst this
  rfl

theorem cells_start (blank : Symbol) : (start blank).cells = [blank] := rfl

theorem length_cells (t : Tape) : t.cells.length = t.visited := by
  rw [t.visited_eq]
  simp only [cells, List.length_append, List.length_reverse, List.length_cons]
  omega

theorem head_lt_visited (t : Tape) : t.head < t.visited := by
  rw [t.visited_eq]
  simp only [head]
  omega

theorem getElem?_cells_head (t : Tape) : t.cells[t.head]? = some t.read := by
  simp [cells, head]

theorem head_write (t : Tape) (s : Symbol) : (t.write s).head = t.head := rfl

theorem visited_write (t : Tape) (s : Symbol) : (t.write s).visited = t.visited := rfl

theorem blank_write (t : Tape) (s : Symbol) : (t.write s).blank = t.blank := rfl

theorem blank_shift (t : Tape) (d : Direction) : (t.shift d).blank = t.blank := by
  cases d <;> simp only [shift] <;> split <;> rfl

theorem head_shift_left (t : Tape) : (t.shift .left).head = t.head - 1 := by
  simp only [shift]
  split
  · next h => simp [head, h]
  · next h => simp [head, h]

theorem head_shift_right (t : Tape) : (t.shift .right).head = t.head + 1 := by
  simp only [shift]
  split <;> rfl

theorem cells_shift_left (t : Tape) :
    (t.shift .left).cells = if t.head = 0 then t.blank :: t.cells else t.cells := by
  simp only [shift]
  split
  · next h => simp [cells, head, h]
  · next h => simp [cells, head, h]

theorem cells_shift_right (t : Tape) :
    (t.shift .right).cells =
      if t.head + 1 = t.visited then t.cells ++ [t.blank] else t.cells := by
  have hv := t.visited_eq
  simp only [shift]
  split
  · next h =>
    have he : t.head + 1 = t.visited := by
      rw [hv, h]
      rfl
    rw [if_pos he]
    simp [cells, h]
  · next s rest h =>
    have he : t.head + 1 ≠ t.visited := by
      simp only [h, List.length_cons] at hv
      simp only [head]
      omega
    rw [if_neg he]
    simp [cells, h]

theorem cells_write (t : Tape) (s : Symbol) : (t.write s).cells = t.cells.set t.head s := by
  simp [cells, head, write]

end Tape

end Holdout
