import Holdout.Analysis
import Holdout.Proofs.Reach
import Mathlib.Logic.Relation

/-!
# The states that a path leads to

A path starts in the first state and goes on by entries of the table, from one state with a row to
another.  The search of a table is also done with a stack here, one state at a time: it passes over
duplicates, and it marks states without a row like any other.

* `Table.Goes`, `Table.IsPath`, `Table.PathTo`   entries from state to state, and paths along them;
* `Table.Tracks`     what a search knows of the states pending and of those seen: kept by a state
                     that is new (`Tracks.new`) and by one that is dropped (`Tracks.old`);
* `Table.Tracks.mem_iff`    when nothing is pending, the states seen are those that a path leads to;
* `Search`, `Search.step?`  the search with a stack, one state at a time;
* `Search.ends`      whatever is on the stack, the search comes to an end;
* `unreachable_states_exact`   what is left over are the states that no path leads to.
-/

namespace Holdout

namespace Table

variable {t : Table} {state next : Nat} {rest pending seen : List Nat}

/-! ## paths -/

/-- some entry of the row of a state goes to another one -/
def Goes (t : Table) (state next : Nat) : Prop :=
  ∃ row, t.row? state = some row ∧ ∃ e ∈ row, e.next = next

/-- the first `k` moves of a walk from the first state: every state is a working one, and some entry
of its row goes to the one after it -/
structure IsPath (t : Table) (k : Nat) (s : Nat → Nat) : Prop where
  first : s 0 = 1
  within : ∀ i ≤ k, 1 ≤ s i ∧ s i ≤ t.states
  goes : ∀ i < k, t.Goes (s i) (s (i + 1))

def PathTo (t : Table) (state : Nat) : Prop := ∃ k s, t.IsPath k s ∧ s k = state

theorem mem_targets_iff : next ∈ t.targets state ↔ t.Goes state next := by
  unfold targets Goes
  cases t.row? state with
  | none => simp
  | some row => simp

theorem pathTo_startState (h : t.hasRow startState = true) : t.PathTo startState := by
  refine ⟨0, fun _ => startState, ⟨rfl, fun _ _ => hasRow_iff.mp h, ?_⟩, rfl⟩
  intro i hi
  exact absurd hi (Nat.not_lt_zero i)

/-- a path goes on -/
theorem PathTo.step (h : t.PathTo state) (hleads : t.Leads state next) : t.PathTo next := by
  obtain ⟨k, s, hpath, rfl⟩ := h
  -- the same walk up to its last state, and the next one after it
  have hold : ∀ i ≤ k, (if i ≤ k then s i else next) = s i := fun i hi => if_pos hi
  have hnew : (if k + 1 ≤ k then s (k + 1) else next) = next := if_neg (Nat.not_succ_le_self k)
  refine ⟨k + 1, fun i => if i ≤ k then s i else next, ⟨hpath.first, ?_, ?_⟩, hnew⟩
  · intro i hi
    rcases Nat.le_succ_iff.mp hi with hi | rfl
    · simp only [hold i hi]
      exact hpath.within i hi
    · simp only [hnew]
      exact hasRow_iff.mp hleads.2
  · intro i hi
    simp only [hold i (Nat.le_of_lt_succ hi)]
    rcases Nat.lt_succ_iff_lt_or_eq.mp hi with hlt | rfl
    · simp only [hold (i + 1) hlt]
      exact hpath.goes i hlt
    · simp only [hnew]
      exact mem_targets_iff.mp hleads.1

/-! ## what a search knows -/

/-- Whatever the states seen lead to is seen or pending, the first state is not forgotten, and
nothing turns up that no path leads to. -/
structure Tracks (t : Table) (pending seen : List Nat) : Prop where
  settled : t.Settled pending seen
  first : t.hasRow startState = true → startState ∈ seen ∨ startState ∈ pending
  led : ∀ state, state ∈ seen ∨ state ∈ pending → t.hasRow state = true → t.PathTo state

theorem tracks_start (t : Table) : t.Tracks [startState] [] where
  settled := t.settled_nil _
  first := fun _ => .inr List.mem_cons_self
  led := by
    rintro state (hnone | hstate) hrow
    · cases hnone
    · cases List.mem_singleton.mp hstate
      exact pathTo_startState hrow

theorem targets_of_not_hasRow (h : ¬t.hasRow state = true) : t.targets state = [] := by
  rw [targets, row?, if_neg h]

/-- a state is seen, and what it goes to becomes pending; one without a row goes nowhere -/
theorem Tracks.new (h : t.Tracks (state :: rest) seen) :
    t.Tracks (t.targets state ++ rest) (state :: seen) where
  settled := h.settled.new
  first := by
    intro hrow
    rcases h.first hrow with hseen | hpending
    · exact .inl (List.mem_cons_of_mem state hseen)
    · rcases List.mem_cons.mp hpending with heq | hrest
      · exact .inl (List.mem_cons.mpr (.inl heq))
      · exact .inr (List.mem_append_right _ hrest)
  led := by
    intro next hnext hrow
    have hgoes : next ∈ t.targets state → t.PathTo next := by
      intro htarget
      by_cases hstate : t.hasRow state = true
      · exact (h.led state (.inr List.mem_cons_self) hstate).step ⟨htarget, hrow⟩
      · rw [targets_of_not_hasRow hstate] at htarget
        cases htarget
    rcases hnext with hseen | hpending
    · rcases List.mem_cons.mp hseen with rfl | hseen
      · exact h.led next (.inr List.mem_cons_self) hrow
      · exact h.led next (.inl hseen) hrow
    · rcases List.mem_append.mp hpending with htarget | hrest
      · exact hgoes htarget
      · exact h.led next (.inr (List.mem_cons_of_mem state hrest)) hrow

/-- a state is dropped that has been seen or has no row -/
theorem Tracks.old (h : t.Tracks (state :: rest) seen)
    (hold : ¬(t.hasRow state = true ∧ state ∉ seen)) : t.Tracks rest seen where
  settled := h.settled.old hold
  first := by
    intro hrow
    rcases h.first hrow with hseen | hpending
    · exact .inl hseen
    · rcases List.mem_cons.mp hpending with heq | hrest
      · by_cases hseen : startState ∈ seen
        · exact .inl hseen
        · exact absurd ⟨heq ▸ hrow, heq ▸ hseen⟩ hold
      · exact .inr hrest
  led := by
    rintro next (hseen | hrest) hrow
    · exact h.led next (.inl hseen) hrow
    · exact h.led next (.inr (List.mem_cons_of_mem state hrest)) hrow

/-- what has been seen need not stay pending, and the order of the rest does not matter -/
theorem Tracks.of_pending {pending' : List Nat} (h : t.Tracks pending seen)
    (hle : ∀ state ∈ pending, state ∈ seen ∨ state ∈ pending')
    (hge : ∀ state ∈ pending', state ∈ pending) : t.Tracks pending' seen where
  settled := by
    intro state hstate next hleads
    rcases h.settled state hstate next hleads with hseen | hpending
    · exact .inl hseen
    · exact hle next hpending
  first := by
    intro hrow
    rcases h.first hrow with hseen | hpending
    · exact .inl hseen
    · exact hle startState hpending
  led := by
    rintro state (hseen | hpending) hrow
    · exact h.led state (.inl hseen) hrow
    · exact h.led state (.inr (hge state hpending)) hrow

/-- in the end the states seen are those that a path leads to -/
theorem Tracks.mem_iff (h : t.Tracks [] seen) (hrow : t.hasRow state = true) :
    state ∈ seen ↔ t.PathTo state := by
  refine ⟨fun hseen => h.led state (.inl hseen) hrow, ?_⟩
  rintro ⟨k, s, hpath, rfl⟩
  have hall : ∀ i ≤ k, s i ∈ seen := by
    intro i
    induction i with
    | zero =>
      intro _
      have hstart : t.hasRow (s 0) = true := hasRow_iff.mpr (hpath.within 0 (Nat.zero_le k))
      rw [hpath.first] at hstart ⊢
      exact (h.first hstart).resolve_right List.not_mem_nil
    | succ i ih =>
      intro hi
      have hleads : t.Leads (s i) (s (i + 1)) :=
        ⟨mem_targets_iff.mpr (hpath.goes i hi), hasRow_iff.mpr (hpath.within (i + 1) hi)⟩
      exact (h.settled (s i) (ih (Nat.le_of_succ_le hi)) _ hleads).resolve_right List.not_mem_nil
  exact hall k (Nat.le_refl k)

theorem tracks_visitFrom (h : t.Tracks pending seen) :
    t.Tracks [] (t.visitFrom pending seen) := by
  fun_induction visitFrom t pending seen with
  | case1 seen => exact h
  | case2 seen state rest hnew ih => exact ih h.new
  | case3 seen state rest hold ih => exact ih (h.old hold)

theorem mem_reached_iff (hrow : t.hasRow state = true) : state ∈ t.reached ↔ t.PathTo state :=
  (tracks_visitFrom t.tracks_start).mem_iff hrow

theorem mem_unreached_iff_not_pathTo :
    state ∈ t.unreached ↔ t.hasRow state = true ∧ ¬t.PathTo state := by
  rw [mem_unreached_iff]
  exact and_congr_right fun hrow => not_congr (mem_reached_iff hrow)

/-- two searches that are over leave the same states over -/
theorem Tracks.remaining_eq {seen' : List Nat} (h : t.Tracks [] seen) (h' : t.Tracks [] seen') :
    t.remaining seen = t.remaining seen' := by
  refine List.filter_congr fun state hstate => ?_
  have hrow := mem_working.mp hstate
  have hmem : state ∈ seen ↔ state ∈ seen' := (h.mem_iff hrow).trans (h'.mem_iff hrow).symm
  simp [hmem]

theorem pairwise_unreached (t : Table) : t.unreached.Pairwise (· < ·) :=
  (List.pairwise_lt_range' (s := 1) (n := t.states) 1 Nat.one_pos).filter _

theorem remaining_cons_of_not_hasRow (h : ¬t.hasRow state = true) :
    t.remaining (state :: seen) = t.remaining seen := by
  refine List.filter_congr fun other hother => ?_
  have hne : other ≠ state := by
    rintro rfl
    exact h (mem_working.mp hother)
  simp [hne]

end Table

/-! ## the search with a stack -/

/-- the states still to look at, from the top of the stack on, and those that have been visited -/
structure Search where
  pending : List Nat
  visited : List Nat

namespace Search

def start : Search := ⟨[startState], []⟩

/-- Takes the state on top, if there is one.  The halted state and a visited one are dropped.  Any
other is visited, and what the entries of its row go to is put on top, the last entry last, unless
it has been visited.  A state without a row is visited as well. -/
def step? (t : Table) (s : Search) : Option Search :=
  match s.pending with
  | [] => none
  | state :: rest =>
    if state = haltState ∨ state ∈ s.visited then some ⟨rest, s.visited⟩
    else
      some ⟨((t.targets state).filter (· ∉ state :: s.visited)).reverse ++ rest,
        state :: s.visited⟩

/-- steps, none or any number of them, lead from one stage of the search to another -/
def ComesTo (t : Table) : Search → Search → Prop :=
  Relation.ReflTransGen fun s s' => s.step? t = some s'

variable {t : Table} {s s' : Search} {state : Nat} {rest visited : List Nat}

theorem step?_drop (h : state = haltState ∨ state ∈ visited) :
    step? t ⟨state :: rest, visited⟩ = some ⟨rest, visited⟩ := if_pos h

theorem step?_visit (h : ¬(state = haltState ∨ state ∈ visited)) :
    step? t ⟨state :: rest, visited⟩ =
      some ⟨((t.targets state).filter (· ∉ state :: visited)).reverse ++ rest,
        state :: visited⟩ := if_neg h

/-- Whatever is on the stack, the search comes to an end: a visit of a state with a row leaves fewer
of them to visit, and every other step takes a state off the stack. -/
theorem ends (t : Table) (s : Search) : ∃ s', ComesTo t s s' ∧ s'.pending = [] := by
  obtain ⟨pending, visited⟩ := s
  cases pending with
  | nil => exact ⟨_, .refl, rfl⟩
  | cons state rest =>
    by_cases hdrop : state = haltState ∨ state ∈ visited
    · obtain ⟨s', hs', hnil⟩ := ends t ⟨rest, visited⟩
      exact ⟨s', .head (step?_drop hdrop) hs', hnil⟩
    · obtain ⟨s', hs', hnil⟩ := ends t
        ⟨((t.targets state).filter (· ∉ state :: visited)).reverse ++ rest, state :: visited⟩
      exact ⟨s', .head (step?_visit hdrop) hs', hnil⟩
termination_by ((t.remaining s.visited).length, s.pending.length)
decreasing_by
  · exact Prod.Lex.right _ (by simp)
  · by_cases hrow : t.hasRow state = true
    · exact Prod.Lex.left _ _
        (Table.length_remaining_cons_lt hrow fun hmem => hdrop (.inr hmem))
    · rw [Table.remaining_cons_of_not_hasRow hrow, Table.targets_of_not_hasRow hrow]
      exact Prod.Lex.right _ (by simp)

/-- one step keeps track -/
theorem tracks_step (h : t.Tracks s.pending s.visited) (hstep : s.step? t = some s') :
    t.Tracks s'.pending s'.visited := by
  obtain ⟨pending, visited⟩ := s
  cases pending with
  | nil => cases hstep
  | cons state rest =>
    by_cases hdrop : state = haltState ∨ state ∈ visited
    · rw [step?_drop hdrop] at hstep
      cases hstep
      refine h.old ?_
      rintro ⟨hrow, hnot⟩
      rcases hdrop with rfl | hseen
      · exact absurd (Table.hasRow_iff.mp hrow).1 (Nat.not_succ_le_zero 0)
      · exact hnot hseen
    · rw [step?_visit hdrop] at hstep
      cases hstep
      refine h.new.of_pending ?_ ?_
      · intro next hnext
        by_cases hseen : next ∈ state :: visited
        · exact .inl hseen
        · refine .inr ?_
          rcases List.mem_append.mp hnext with htarget | hrest
          · exact List.mem_append_left _
              (List.mem_reverse.mpr (List.mem_filter.mpr ⟨htarget, decide_eq_true hseen⟩))
          · exact List.mem_append_right _ hrest
      · intro next hnext
        rcases List.mem_append.mp hnext with htarget | hrest
        · exact List.mem_append_left _ (List.mem_filter.mp (List.mem_reverse.mp htarget)).1
        · exact List.mem_append_right _ hrest

theorem ComesTo.tracks (h : ComesTo t s s') (hs : t.Tracks s.pending s.visited) :
    t.Tracks s'.pending s'.visited := by
  induction h with
  | refl => exact hs
  | tail _ hstep ih => exact tracks_step ih hstep

end Search

/-- **The states reported are those that no path leads to.**  The search with a stack ends, and the
working states that it has not visited then are the ones reported, by their letters: in order, each
of them once, and a state is among them exactly if it has a row and no path leads to it. -/
theorem unreachable_states_exact (m : Machine) :
    (∃ s, Search.ComesTo m.table Search.start s ∧ s.pending = [] ∧
      m.analysis.unreachableStates = (m.table.remaining s.visited).map stateName) ∧
    ∃ states : List Nat, states.Pairwise (· < ·) ∧
      (∀ state, state ∈ states ↔ (1 ≤ state ∧ state ≤ m.states) ∧ ¬m.table.PathTo state) ∧
      m.analysis.unreachableStates = states.map stateName := by
  constructor
  · obtain ⟨s, hs, hnil⟩ := Search.ends m.table Search.start
    have hover := hs.tracks m.table.tracks_start
    rw [hnil] at hover
    refine ⟨s, hs, hnil, ?_⟩
    rw [hover.remaining_eq (Table.tracks_visitFrom m.table.tracks_start)]
    rfl
  · refine ⟨m.table.unreached, m.table.pairwise_unreached, fun state => ?_, rfl⟩
    rw [Table.mem_unreached_iff_not_pathTo, Table.hasRow_iff]
    rfl

end Holdout
