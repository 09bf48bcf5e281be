import Holdout.Table

/-!
# Reachable states

The states that some row sequence leads to from the first state, whatever the tape says.  The
search keeps a stack of states to look at and a list of those already seen; states without a row
lead nowhere and are dropped.

* `Table.targets`      the next states of one row;
* `Table.visitFrom`    the search;
* `Table.reached`      what it finds, `Table.unreached` the working states it does not find.
-/

namespace Holdout

namespace Table

def targets (t : Table) (state : Nat) : List Nat :=
  match t.row? state with
  | some row => row.map Transition.next
  | none => []

def working (t : Table) : List Nat := List.range' 1 t.states

theorem mem_working {t : Table} {state : Nat} : state ∈ t.working ↔ t.hasRow state = true := by
  simp only [working, List.mem_range'_1, hasRow_iff]
  omega

/-- the working states that are not in a list -/
def remaining (t : Table) (seen : List Nat) : List Nat :=
  t.working.filter fun state => !seen.contains state

theorem length_filter_lt {α : Type} {p q : α → Bool} {l : List α}
    (himp : ∀ x, q x = true → p x = true) {x : α} (hx : x ∈ l) (hp : p x = true)
    (hq : q x = false) : (l.filter q).length < (l.filter p).length := by
  induction l with
  | nil => cases hx
  | cons y l ih =>
    have hle : (l.filter q).length ≤ (l.filter p).length := by
      clear ih hx
      induction l with
      | nil => exact Nat.le_refl _
      | cons z l ih =>
        by_cases hz : q z = true
        · simp [hz, himp z hz, ih]
        · simp only [List.filter_cons, hz, Bool.false_eq_true, ↓reduceIte]
          split
          · exact Nat.le_trans ih (Nat.le_succ _)
          · exact ih
    rcases List.mem_cons.mp hx with rfl | hx
    · simp only [List.filter_cons, hp, hq, ↓reduceIte, Bool.false_eq_true, List.length_cons]
      omega
    · have := ih hx
      by_cases hy : q y = true
      · simp [hy, himp y hy, this]
      · simp only [List.filter_cons, hy, Bool.false_eq_true, ↓reduceIte]
        split
        · exact Nat.lt_succ_of_lt this
        · exact this

theorem length_remaining_cons_lt {t : Table} {state : Nat} {seen : List Nat}
    (h : t.hasRow state = true) (hs : state ∉ seen) :
    (t.remaining (state :: seen)).length < (t.remaining seen).length := by
  refine length_filter_lt ?_ (mem_working.mpr h) (by simpa using hs) (by simp)
  intro x hx
  simp only [Bool.not_eq_true', List.contains_cons, Bool.or_eq_false_iff] at hx ⊢
  exact hx.2

/-- looks at the pending states one by one, adding the targets of each new one -/
def visitFrom (t : Table) (pending seen : List Nat) : List Nat :=
  match pending with
  | [] => seen
  | state :: rest =>
    if _h : t.hasRow state = true ∧ state ∉ seen then
      visitFrom t (t.targets state ++ rest) (state :: seen)
    else visitFrom t rest seen
termination_by ((t.remaining seen).length, pending.length)
decreasing_by
  · exact Prod.Lex.left _ _ (length_remaining_cons_lt (And.left ‹_›) (And.right ‹_›))
  · exact Prod.Lex.right _ (by simp)

/-- the working states that the first state leads to -/
def reached (t : Table) : List Nat := t.visitFrom [startState] []

/-- the other working states, in order -/
def unreached (t : Table) : List Nat := t.remaining t.reached

end Table

end Holdout
