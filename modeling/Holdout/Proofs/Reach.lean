import Holdout.Proofs.Table
import Holdout.Reach

/-!
# What the search of a table finds

The search keeps to one rule: a state that one of those seen leads to is seen itself or still
pending.  Once nothing is pending, the states found are closed under the transitions of the table.

* `Table.Leads`         a transition of one state goes to another one that has a row;
* `Table.Settled`       the rule, kept by both steps of the search (`Settled.new`, `Settled.old`);
* `Table.settled_visitFrom`   so it holds when the search is over;
* `Table.startState_mem_reached`, `Table.Leads.mem_reached`   the states found hold the first one
                        and all that one of them leads to;
* `Table.Finds`         a state that is found, if it has a row at all: so are the first state and,
                        with a state, whatever its entries lead to (`Finds.of_get?`).
-/

namespace Holdout

namespace Table

variable {t : Table} {state next : Nat} {rest pending seen : List Nat}

/-- some transition of a state goes to another one, which has a row -/
def Leads (t : Table) (state next : Nat) : Prop := next ∈ t.targets state ∧ t.hasRow next = true

theorem mem_targets_of_get? {symbol : Symbol} {e : Transition}
    (h : t.get? state symbol = some e) : e.next ∈ t.targets state := by
  rw [get?_eq_bind_row?] at h
  obtain ⟨row, hrow, he⟩ := Option.bind_eq_some_iff.mp h
  rw [targets, hrow]
  exact List.mem_map_of_mem (List.mem_of_getElem? he)

/-! ## the search -/

/-- whatever the states seen lead to is seen or pending -/
def Settled (t : Table) (pending seen : List Nat) : Prop :=
  ∀ state ∈ seen, ∀ next, t.Leads state next → next ∈ seen ∨ next ∈ pending

theorem settled_nil (t : Table) (pending : List Nat) : t.Settled pending [] :=
  fun _ h => absurd h List.not_mem_nil

/-- a new state is seen and its targets become pending -/
theorem Settled.new (h : t.Settled (state :: rest) seen) :
    t.Settled (t.targets state ++ rest) (state :: seen) := by
  intro s hs next hnext
  rcases List.mem_cons.mp hs with rfl | hs
  · exact .inr (List.mem_append_left rest hnext.1)
  · rcases h s hs next hnext with hseen | hpending
    · exact .inl (List.mem_cons_of_mem state hseen)
    · rcases List.mem_cons.mp hpending with rfl | hrest
      · exact .inl List.mem_cons_self
      · exact .inr (List.mem_append_right _ hrest)

/-- a state that is dropped has been seen, or nothing leads to it -/
theorem Settled.old (h : t.Settled (state :: rest) seen)
    (hold : ¬(t.hasRow state = true ∧ state ∉ seen)) : t.Settled rest seen := by
  intro s hs next hnext
  rcases h s hs next hnext with hseen | hpending
  · exact .inl hseen
  · rcases List.mem_cons.mp hpending with rfl | hrest
    · by_cases hseen : next ∈ seen
      · exact .inl hseen
      · exact absurd ⟨hnext.2, hseen⟩ hold
    · exact .inr hrest

theorem settled_visitFrom (h : t.Settled pending seen) :
    t.Settled [] (t.visitFrom pending seen) := by
  fun_induction visitFrom t pending seen with
  | case1 seen => exact h
  | case2 seen state rest hnew ih => exact ih h.new
  | case3 seen state rest hold ih => exact ih (h.old hold)

theorem mem_visitFrom_of_seen (h : state ∈ seen) : state ∈ t.visitFrom pending seen := by
  fun_induction visitFrom t pending seen with
  | case1 seen => exact h
  | case2 seen first rest hnew ih => exact ih (List.mem_cons_of_mem first h)
  | case3 seen first rest hold ih => exact ih h

theorem mem_visitFrom_of_pending (hrow : t.hasRow state = true) (h : state ∈ pending) :
    state ∈ t.visitFrom pending seen := by
  fun_induction visitFrom t pending seen with
  | case1 seen => cases h
  | case2 seen first rest hnew ih =>
    rcases List.mem_cons.mp h with rfl | hrest
    · exact mem_visitFrom_of_seen List.mem_cons_self
    · exact ih (List.mem_append_right _ hrest)
  | case3 seen first rest hold ih =>
    rcases List.mem_cons.mp h with rfl | hrest
    · by_cases hseen : state ∈ seen
      · exact mem_visitFrom_of_seen hseen
      · exact absurd ⟨hrow, hseen⟩ hold
    · exact ih hrest

/-! ## the states found -/

theorem startState_mem_reached (h : t.hasRow startState = true) : startState ∈ t.reached :=
  mem_visitFrom_of_pending h List.mem_cons_self

theorem Leads.mem_reached (h : t.Leads state next) (hstate : state ∈ t.reached) :
    next ∈ t.reached := by
  rcases settled_visitFrom (t.settled_nil [startState]) state hstate next h with hseen | hnone
  · exact hseen
  · cases hnone

/-- a state is among those found, if it has a row -/
def Finds (t : Table) (state : Nat) : Prop := t.hasRow state = true → state ∈ t.reached

theorem finds_startState (t : Table) : t.Finds startState := startState_mem_reached

theorem Finds.of_get? {symbol : Symbol} {e : Transition} (h : t.Finds state)
    (he : t.get? state symbol = some e) : t.Finds e.next := by
  intro hnext
  have hleads : t.Leads state e.next := ⟨mem_targets_of_get? he, hnext⟩
  exact hleads.mem_reached (h (hasRow_of_get? he))

theorem mem_unreached_iff : state ∈ t.unreached ↔ t.hasRow state = true ∧ state ∉ t.reached := by
  rw [unreached, remaining, List.mem_filter, mem_working]
  simp

theorem Finds.not_mem_unreached (h : t.Finds state) : state ∉ t.unreached := by
  intro hmem
  obtain ⟨hrow, hnot⟩ := mem_unreached_iff.mp hmem
  exact hnot (h hrow)

end Table

end Holdout
