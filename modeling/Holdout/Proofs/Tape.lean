import Holdout.Tape
import Mathlib

/-!
# What a growing tape stands for

A growing tape is a window on a tape without ends: it holds the cells of the window, and every cell
outside holds the blank.  Where the window lies is not part of the tape, so the position of its
first cell is given beside it.

* `Tape.spread`    the tape without ends, by position;
* `Tape.slide`     where the window begins after a shift: a shift past the left end moves it;
* `Tape.spread_write`, `Tape.spread_shift`   a write changes one position, a shift none;
* `Tape.score_eq_sum_spread`   the score is the sum over the window;
* `Tape.mem_cells_shift_write`   where the symbols of a tape come from.
-/

namespace Holdout

namespace Tape

/-! ## growth -/

theorem visited_shift_left (t : Tape) :
    (t.shift .left).visited = if t.head = 0 then t.visited + 1 else t.visited := by
  rw [← length_cells, cells_shift_left, ← length_cells]
  split <;> simp

theorem visited_shift_right (t : Tape) :
    (t.shift .right).visited = if t.head + 1 = t.visited then t.visited + 1 else t.visited := by
  rw [← length_cells, cells_shift_right, ← length_cells]
  split <;> simp

theorem visited_le_visited_shift (t : Tape) (d : Direction) : t.visited ≤ (t.shift d).visited := by
  cases d with
  | left =>
    rw [visited_shift_left]
    split <;> omega
  | right =>
    rw [visited_shift_right]
    split <;> omega

theorem visited_shift_le (t : Tape) (d : Direction) : (t.shift d).visited ≤ t.visited + 1 := by
  cases d with
  | left =>
    rw [visited_shift_left]
    split <;> omega
  | right =>
    rw [visited_shift_right]
    split <;> omega

theorem cells_ne_nil (t : Tape) : t.cells ≠ [] := by
  intro h
  have hlen := length_cells t
  have hhead := head_lt_visited t
  rw [h, List.length_nil] at hlen
  omega

/-! ## where symbols come from -/

theorem read_mem_cells (t : Tape) : t.read ∈ t.cells :=
  List.mem_of_getElem? (getElem?_cells_head t)

theorem mem_cells_write {t : Tape} {s a : Symbol} (h : a ∈ (t.write s).cells) :
    a = s ∨ a ∈ t.cells := by
  rw [cells_write] at h
  exact (List.mem_or_eq_of_mem_set h).symm

theorem mem_cells_shift {t : Tape} {d : Direction} {a : Symbol} (h : a ∈ (t.shift d).cells) :
    a = t.blank ∨ a ∈ t.cells := by
  cases d with
  | left =>
    rw [cells_shift_left] at h
    split at h
    · exact List.mem_cons.mp h
    · exact .inr h
  | right =>
    rw [cells_shift_right] at h
    split at h
    · rcases List.mem_append.mp h with h | h
      · exact .inr h
      · exact .inl (List.mem_singleton.mp h)
    · exact .inr h

/-- after a move, a cell is a new one, the one written or an old one -/
theorem mem_cells_shift_write {t : Tape} {s a : Symbol} {d : Direction}
    (h : a ∈ ((t.write s).shift d).cells) : a = t.blank ∨ a = s ∨ a ∈ t.cells := by
  rcases mem_cells_shift h with hblank | hwrite
  · exact .inl hblank
  · exact .inr (mem_cells_write hwrite)

theorem blank_shift_write (t : Tape) (s : Symbol) (d : Direction) :
    ((t.write s).shift d).blank = t.blank := by
  rw [blank_shift, blank_write]

/-! ## the tape without ends -/

/-- the symbol at a position of the tape without ends, when the first cell lies at `first` -/
def spread (t : Tape) (first : Int) (position : Int) : Symbol :=
  if position < first then t.blank else t.cells.getD (position - first).toNat t.blank

theorem spread_of_lt {t : Tape} {first position : Int} (h : position < first) :
    t.spread first position = t.blank := by
  rw [spread, if_pos h]

theorem spread_add (t : Tape) (first : Int) (i : Nat) :
    t.spread first (first + i) = t.cells.getD i t.blank := by
  have h : ¬ first + (i : Int) < first := by omega
  rw [spread, if_neg h, show (first + (i : Int) - first).toNat = i by omega]

/-- two symbols by position agree if they agree before a position and from it on -/
theorem eq_of_lt_of_add {f g : Int → Symbol} (first : Int) (hlt : ∀ p < first, f p = g p)
    (hadd : ∀ i : Nat, f (first + i) = g (first + i)) : f = g := by
  funext p
  rcases lt_or_ge p first with hp | hp
  · exact hlt p hp
  · obtain ⟨i, rfl⟩ := Int.le.dest hp
    exact hadd i

theorem spread_start (blank : Symbol) (first : Int) :
    (start blank).spread first = fun _ => blank := by
  apply eq_of_lt_of_add first
  · intro p hp
    exact spread_of_lt hp
  · intro i
    rw [spread_add, cells_start]
    cases i <;> rfl

theorem spread_head (t : Tape) (first : Int) : t.spread first (first + t.head) = t.read := by
  rw [spread_add, List.getD_eq_getElem?_getD, getElem?_cells_head, Option.getD_some]

theorem getElem?_cells_eq_spread {t : Tape} {i : Nat} (h : i < t.visited) (first : Int) :
    t.cells[i]? = some (t.spread first (first + i)) := by
  rw [← length_cells] at h
  rw [spread_add, List.getD_eq_getElem?_getD, List.getElem?_eq_getElem h, Option.getD_some]

theorem spread_outside {t : Tape} {first p : Int} (h : p < first ∨ first + t.visited ≤ p) :
    t.spread first p = t.blank := by
  rcases h with h | h
  · exact spread_of_lt h
  · obtain ⟨i, rfl⟩ := Int.le.dest (show first ≤ p by omega)
    have hi : t.cells.length ≤ i := by
      rw [length_cells]
      omega
    rw [spread_add, List.getD_eq_getElem?_getD, List.getElem?_eq_none hi, Option.getD_none]

theorem spread_write (t : Tape) (s : Symbol) (first : Int) :
    (t.write s).spread first = Function.update (t.spread first) (first + t.head) s := by
  have hlen : t.head < t.cells.length := by
    rw [length_cells]
    exact head_lt_visited t
  apply eq_of_lt_of_add first
  · intro p hp
    rw [Function.update_of_ne (by omega), spread_of_lt hp, spread_of_lt hp, blank_write]
  · intro i
    rw [spread_add, cells_write, blank_write]
    rcases eq_or_ne i t.head with rfl | hi
    · rw [Function.update_self, List.getD_eq_getElem?_getD, List.getElem?_set_self hlen,
        Option.getD_some]
    · rw [Function.update_of_ne (by omega), spread_add, List.getD_eq_getElem?_getD,
        List.getElem?_set_ne hi.symm, List.getD_eq_getElem?_getD]

/-- where the window begins after a shift -/
def slide (t : Tape) : Direction → Int → Int
  | .left, first => if t.head = 0 then first - 1 else first
  | .right, first => first

theorem spread_shift_left (t : Tape) (first : Int) :
    (t.shift .left).spread (t.slide .left first) = t.spread first := by
  have hblank := blank_shift t .left
  by_cases h0 : t.head = 0
  · have hslide : t.slide .left first = first - 1 := by simp [slide, h0]
    have hcells : (t.shift .left).cells = t.blank :: t.cells := by
      rw [cells_shift_left, if_pos h0]
    rw [hslide]
    apply eq_of_lt_of_add (first - 1)
    · intro p hp
      rw [spread_of_lt hp, spread_of_lt (by omega), hblank]
    · intro i
      rw [spread_add, hcells, hblank]
      cases i with
      | zero => rw [List.getD_cons_zero, spread_of_lt (by omega)]
      | succ i =>
        rw [List.getD_cons_succ, show first - 1 + ((i + 1 : Nat) : Int) = first + i by omega,
          spread_add]
  · have hslide : t.slide .left first = first := by simp [slide, h0]
    have hcells : (t.shift .left).cells = t.cells := by
      rw [cells_shift_left, if_neg h0]
    funext p
    rw [hslide, spread, spread, hcells, hblank]

theorem spread_shift_right (t : Tape) (first : Int) :
    (t.shift .right).spread first = t.spread first := by
  have hblank := blank_shift t .right
  apply eq_of_lt_of_add first
  · intro p hp
    rw [spread_of_lt hp, spread_of_lt hp, hblank]
  · intro i
    rw [spread_add, spread_add, cells_shift_right, hblank]
    split
    · rcases lt_or_ge i t.cells.length with hi | hi
      · rw [List.getD_append _ _ _ _ hi]
      · rw [List.getD_append_right _ _ _ _ hi, List.getD_eq_default _ _ hi]
        cases i - t.cells.length <;> rfl
    · rfl

theorem spread_shift (t : Tape) (d : Direction) (first : Int) :
    (t.shift d).spread (t.slide d first) = t.spread first := by
  cases d with
  | left => exact spread_shift_left t first
  | right => exact spread_shift_right t first

/-! ## the score -/

theorem foldl_add_toNat (l : List Symbol) (sum : Nat) :
    l.foldl (fun sum s => sum + s.toNat) sum = sum + (l.map UInt8.toNat).sum := by
  induction l generalizing sum with
  | nil => rfl
  | cons s l ih =>
    rw [List.foldl_cons, ih, List.map_cons, List.sum_cons]
    omega

theorem sum_map_toNat_eq (l : List Symbol) (d : Symbol) :
    (l.map UInt8.toNat).sum = ∑ i ∈ Finset.range l.length, (l.getD i d).toNat := by
  induction l with
  | nil => rfl
  | cons s l ih =>
    rw [List.map_cons, List.sum_cons, ih, List.length_cons, Finset.sum_range_succ']
    simp only [List.getD_cons_succ, List.getD_cons_zero]
    omega

theorem Ico_eq_image (first : Int) (n : Nat) :
    Finset.Ico first (first + n) = (Finset.range n).image fun i : Nat => first + i := by
  ext p
  simp only [Finset.mem_Ico, Finset.mem_image, Finset.mem_range]
  constructor
  · rintro ⟨h1, h2⟩
    obtain ⟨i, rfl⟩ := Int.le.dest h1
    exact ⟨i, by omega, rfl⟩
  · rintro ⟨i, hi, rfl⟩
    omega

theorem score_eq_sum_spread (t : Tape) (first : Int) :
    t.score = ∑ p ∈ Finset.Ico first (first + t.visited), (t.spread first p).toNat := by
  have hinj : Set.InjOn (fun i : Nat => first + (i : Int)) (Finset.range t.visited) := by
    intro i _ k _ h
    simp only at h
    omega
  rw [score, foldl_add_toNat, Nat.zero_add, sum_map_toNat_eq t.cells t.blank, length_cells,
    Ico_eq_image, Finset.sum_image hinj]
  simp only [spread_add]

end Tape

end Holdout
