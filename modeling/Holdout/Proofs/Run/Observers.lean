import Holdout.Proofs.Endless
import Holdout.Proofs.Run.Ends

/-!
# What observers see

An observer is shown every configuration that a run comes to, once and in order, and has no hold on
the run.  A trace is the observer that keeps the first few of them.

* `Machine.observed`         the configurations that a run comes to;
* `Machine.EndsAt.change_clock`   the clock matters only by when the budget of time runs out;
* `Machine.EndsAt.observe_eq`, `Machine.EndsAt.trace_eq`   the outcome of a run with what an observer,
                             a trace makes of these configurations;
* `Machine.EndsAt.exists_overflow_iff`   the space ceiling is passed by one cell, at the very end;
* `Shown`, `observers_see_the_run`   all of it for every run that ends.
-/

namespace Holdout

/-! ## clocks -/

theorem Limits.verdict?_congr {l : Limits} {passed passed' : Nat}
    (h : l.timeIsUp passed = l.timeIsUp passed') (c : Config) :
    l.verdict? passed c = l.verdict? passed' c := by
  rw [Limits.verdict?, Limits.verdict?, h]

namespace Machine

variable {m : Machine} {l : Limits} {clock clock' : Clock} {outcome : Outcome} {n : Nat}

theorem stopAt_congr (h : ∀ k, l.timeIsUp (clock k) = l.timeIsUp (clock' k)) (k : Nat) :
    m.stopAt l clock k = m.stopAt l clock' k := by
  rw [stopAt, stopAt, stop?, stop?, Limits.verdict?_congr (h _)]

/-- two clocks on which the budget of time runs out alike end a run alike -/
theorem EndsAt.change_clock (h : m.EndsAt l clock n outcome)
    (hclock : ∀ k, l.timeIsUp (clock k) = l.timeIsUp (clock' k)) :
    m.EndsAt l clock' n outcome := by
  refine ⟨?_, fun i hi => ?_⟩
  · rw [← stopAt_congr hclock]
    exact h.1
  · rw [← stopAt_congr hclock]
    exact h.2 i hi

/-! ## observers -/

/-- the configurations that a run of `n` transitions comes to, in order -/
def observed (m : Machine) (n : Nat) : List Config := (List.range' 1 n).map m.after

theorem length_observed (m : Machine) (n : Nat) : (m.observed n).length = n := by
  rw [observed, List.length_map, List.length_range']

theorem getElem?_observed_iff {i : Nat} {c : Config} :
    (m.observed n)[i]? = some c ↔ i < n ∧ m.after (i + 1) = c := by
  rw [observed, List.getElem?_map, Option.map_eq_some_iff]
  constructor
  · rintro ⟨k, hk, rfl⟩
    obtain ⟨hi, rfl⟩ := List.getElem?_eq_some_iff.mp hk
    rw [List.length_range'] at hi
    rw [List.getElem_range', Nat.one_mul, Nat.add_comm]
    exact ⟨hi, rfl⟩
  · rintro ⟨hi, rfl⟩
    refine ⟨i + 1, ?_, rfl⟩
    rw [List.getElem?_range' hi, Nat.one_mul, Nat.add_comm]

theorem mem_observed_iff {c : Config} :
    c ∈ m.observed n ↔ ∃ i < n, m.after (i + 1) = c := by
  rw [List.mem_iff_getElem?]
  simp only [getElem?_observed_iff]

theorem EndsAt.observe_eq (h : m.EndsAt l clock n outcome) {σ : Type}
    (observer : σ → Config → σ) (first : σ) (patience : Nat) :
    m.observe l observer patience first clock =
      if n < patience then some (outcome, (m.observed n).foldl observer first) else none := by
  by_cases hn : n < patience
  · rw [if_pos hn]
    exact (observe_eq_some_iff observer).mpr ⟨n, hn, h, rfl⟩
  · rw [if_neg hn]
    cases hobserve : m.observe l observer patience first clock with
    | none => rfl
    | some answer =>
      obtain ⟨n', hn', h', _⟩ := (observe_eq_some_iff observer).mp hobserve
      rw [(h.unique h').1] at hn
      exact absurd hn' hn

theorem EndsAt.run_eq (h : m.EndsAt l clock n outcome) (patience : Nat) :
    m.run l patience clock = if n < patience then some outcome else none := by
  rw [run, h.observe_eq]
  split <;> rfl

/-! ## traces -/

theorem toList_foldl_keep (most : Nat) (kept : Trace) (cs : List Config) :
    (cs.foldl (Trace.keep most) kept).toList =
      kept.toList ++ (cs.map Snapshot.ofConfig).take (most - kept.size) := by
  induction cs generalizing kept with
  | nil => simp
  | cons c cs ih =>
    rw [List.foldl_cons, ih, Trace.size_keep, List.map_cons]
    by_cases hfull : most ≤ kept.size
    · have hnone : most - kept.size = 0 := Nat.sub_eq_zero_of_le hfull
      rw [if_pos hfull, Trace.keep_of_isFull (decide_eq_true hfull), hnone, List.take_zero,
        List.take_zero]
    · have hsome : most - kept.size = most - (kept.size + 1) + 1 := by omega
      have hkeep : Trace.keep most kept c = kept.push (Snapshot.ofConfig c) :=
        if_neg (by simpa [Trace.isFull] using hfull)
      rw [if_neg hfull, hkeep, hsome, List.take_succ_cons, Array.toList_push, List.append_assoc]
      rfl

theorem EndsAt.trace_eq (h : m.EndsAt l clock n outcome) (most patience : Nat) :
    m.trace l most patience clock =
      if n < patience then some (outcome, ((m.observed n).map Snapshot.ofConfig).take most)
      else none := by
  rw [trace, h.observe_eq]
  split
  · have hkept : ((m.observed n).foldl (Trace.keep most) #[]).toList =
        ((m.observed n).map Snapshot.ofConfig).take most := toList_foldl_keep most #[] _
    rw [← hkept]
    rfl
  · rfl

theorem EndsAt.eq_of_trace (h : m.EndsAt l clock n outcome) {most patience : Nat} {o : Outcome}
    {kept : List Snapshot} (htrace : m.trace l most patience clock = some (o, kept)) :
    kept = ((m.observed n).map Snapshot.ofConfig).take most := by
  rw [h.trace_eq] at htrace
  split at htrace
  · cases htrace
    rfl
  · cases htrace

theorem trace_eq_some_iff {most patience : Nat} {kept : List Snapshot} :
    m.trace l most patience clock = some (outcome, kept) ↔
      ∃ n < patience, m.EndsAt l clock n outcome ∧
        kept = ((m.observed n).map Snapshot.ofConfig).take most := by
  constructor
  · intro h
    obtain ⟨n, hlt, hn⟩ := exists_endsAt_of_trace h
    exact ⟨n, hlt, hn, hn.eq_of_trace h⟩
  · intro ⟨n, hlt, hn, hkept⟩
    rw [hn.trace_eq, if_pos hlt, hkept]

/-- two clocks on which the budget of time runs out alike give one trace -/
theorem trace_congr (h : ∀ k, l.timeIsUp (clock k) = l.timeIsUp (clock' k)) (most patience : Nat) :
    m.trace l most patience clock = m.trace l most patience clock' := by
  apply Option.ext
  intro ⟨outcome, kept⟩
  have hends : ∀ n, m.EndsAt l clock n outcome ↔ m.EndsAt l clock' n outcome := fun n =>
    ⟨fun hn => hn.change_clock h, fun hn => hn.change_clock fun k => (h k).symm⟩
  rw [trace_eq_some_iff, trace_eq_some_iff]
  simp only [hends]

/-! ## how many configurations there are -/

theorem EndsAt.steps_eq_of_exceeded (h : m.EndsAt l clock n (.exceeded .steps)) :
    l.steps = some n := by
  have hcount := steps_after h.takes
  cases stop?_eq_some_iff.mp h.1 with
  | steps _ _ _ hup =>
    rw [hcount, Limits.stepsAreUp] at hup
    cases hsteps : l.steps with
    | none =>
      rw [hsteps] at hup
      cases hup
    | some most =>
      rw [hsteps, Option.any_some, decide_eq_true_eq] at hup
      rw [Nat.le_antisymm hup (h.stillRuns.le_budget hsteps)]

theorem EndsAt.eq_zero_of_no_time (h : m.EndsAt l clock n outcome) {span : Span}
    (htime : l.time = some span) (hzero : span.total = 0) : n = 0 := by
  by_contra hn
  have hgo := (h.stillRuns.goesOn (Nat.pos_of_ne_zero hn)).time
  rw [Limits.timeIsUp, htime, Option.any_some, hzero, decide_eq_false_iff_not] at hgo
  exact hgo (Nat.zero_le _)

/-! ## the space ceiling -/

theorem visited_growth_le_one (m : Machine) (k : Nat) :
    (m.after (k + 1)).tape.visited ≤ (m.after k).tape.visited + 1 := by
  rcases m.pass_cases (m.after k) with hsame | ⟨t, _, hmoved⟩
  · rw [after_succ, hsame]
    exact Nat.le_succ _
  · rw [after_succ, hmoved]
    exact Tape.visited_shift_le ((m.after k).tape.write t.write) t.shift

theorem EndsAt.visited_le (h : m.EndsAt l clock n outcome) {i : Nat} (hi : i < n) :
    (m.after i).tape.visited ≤ l.space :=
  (h.stillRuns.goesOn hi).space

/-- a run that has not ended yet is past the ceiling by one cell at most -/
theorem StillRuns.visited_le {k : Nat} (h : m.StillRuns l clock k) :
    (m.after k).tape.visited ≤ l.space + 1 := by
  cases k with
  | zero => exact Nat.succ_le_succ (Nat.zero_le l.space)
  | succ k =>
    have hspace := (h.goesOn (Nat.lt_succ_self k)).space
    exact Nat.le_trans (visited_growth_le_one m k) (Nat.succ_le_succ hspace)

/-- only the last configuration can have passed the ceiling -/
theorem EndsAt.eq_of_overflow (h : m.EndsAt l clock n outcome) {i : Nat} (hi : i < n)
    (hvisited : (m.after (i + 1)).tape.visited = l.space + 1) : i + 1 = n := by
  by_contra hne
  have hle := h.visited_le (show i + 1 < n by omega)
  omega

theorem EndsAt.exists_overflow_iff (h : m.EndsAt l clock n outcome) :
    (∃ c ∈ m.observed n, c.tape.visited = l.space + 1) ↔
      outcome = .exceeded .space ∧ 0 < l.space := by
  constructor
  · rintro ⟨c, hc, hvisited⟩
    obtain ⟨i, hi, rfl⟩ := mem_observed_iff.mp hc
    have hbefore := h.visited_le hi
    have hpos := Tape.head_lt_visited (m.after i).tape
    rw [h.eq_of_overflow hi hvisited] at hvisited
    refine ⟨?_, by omega⟩
    cases stop?_eq_some_iff.mp h.1 with
    | space _ => rfl
    | halted hspace _ => omega
    | time hspace _ _ => omega
    | steps hspace _ _ _ => omega
    | fault hgo _ =>
      have hspace := hgo.space
      omega
  · rintro ⟨rfl, hpos⟩
    cases stop?_eq_some_iff.mp h.1 with
    | space hover =>
      cases n with
      | zero =>
        have hone : (m.after 0).tape.visited = 1 := rfl
        omega
      | succ k =>
        have hle := h.stillRuns.visited_le
        exact ⟨_, mem_observed_iff.mpr ⟨k, Nat.lt_succ_self k, rfl⟩, by omega⟩

end Machine

/-! ## runs that end -/

/-- what every observer and every trace of a run come to, if the run ends with `outcome` and takes
`calls` transitions before -/
structure Shown (m : Machine) (l : Limits) (clock : Clock) (outcome : Outcome) (calls : Nat) :
    Prop where
  takes : m.Takes calls
  length_observed : (m.observed calls).length = calls
  run_eq : ∀ patience, m.run l patience clock = if calls < patience then some outcome else none
  observe_eq : ∀ {σ : Type} (observer : σ → Config → σ) (first : σ) (patience : Nat),
    m.observe l observer patience first clock =
      if calls < patience then some (outcome, (m.observed calls).foldl observer first) else none
  calls_of_halted : ∀ score steps, outcome = .halted score steps → calls = steps
  calls_of_steps : outcome = .exceeded .steps → l.steps = some calls
  calls_of_no_time : ∀ span, l.time = some span → span.total = 0 → calls = 0
  trace_eq : ∀ most patience, m.trace l most patience clock =
    if calls < patience then some (outcome, ((m.observed calls).map Snapshot.ofConfig).take most)
    else none
  trace_prefix : ∀ most more patience patience' o o' kept kept', most ≤ more →
    m.trace l most patience clock = some (o, kept) →
    m.trace l more patience' clock = some (o', kept') → kept <+: kept'
  snapshot : ∀ most patience o kept, m.trace l most patience clock = some (o, kept) →
    ∀ s ∈ kept, s.visited = s.tape.length ∧ s.head < s.visited ∧ s.visited ≤ l.space + 1
  overflow_last : ∀ i c, (m.observed calls)[i]? = some c → c.tape.visited = l.space + 1 →
    i + 1 = calls
  overflow_iff : (∃ c ∈ m.observed calls, c.tape.visited = l.space + 1) ↔
    outcome = .exceeded .space ∧ 0 < l.space

theorem Machine.EndsAt.shown {m : Machine} {l : Limits} {clock : Clock} {n : Nat}
    {outcome : Outcome} (h : m.EndsAt l clock n outcome) : Shown m l clock outcome n where
  takes := h.takes
  length_observed := m.length_observed n
  run_eq := h.run_eq
  observe_eq := h.observe_eq
  calls_of_halted := by
    rintro score steps rfl
    exact h.of_halted.2.2.2.symm
  calls_of_steps := by
    rintro rfl
    exact h.steps_eq_of_exceeded
  calls_of_no_time := fun _ => h.eq_zero_of_no_time
  trace_eq := h.trace_eq
  trace_prefix := by
    intro most more patience patience' o o' kept kept' hle htrace htrace'
    rw [h.eq_of_trace htrace, h.eq_of_trace htrace', ← Nat.min_eq_left hle, ← List.take_take]
    exact List.take_prefix most _
  snapshot := by
    intro most patience o kept htrace s hs
    rw [h.eq_of_trace htrace] at hs
    obtain ⟨c, hc, rfl⟩ := List.mem_map.mp (List.mem_of_mem_take hs)
    obtain ⟨i, hi, rfl⟩ := Machine.mem_observed_iff.mp hc
    exact ⟨(Tape.length_cells _).symm, Tape.head_lt_visited _,
      (h.stillRuns.of_le hi).visited_le⟩
  overflow_last := by
    intro i c hc hvisited
    obtain ⟨hi, rfl⟩ := Machine.getElem?_observed_iff.mp hc
    exact h.eq_of_overflow hi hvisited
  overflow_iff := h.exists_overflow_iff

/-- **Observers see exactly the run and never change it.**  Let a run end with an outcome.  On any
clock on which the budget of time runs out alike, as it does if there is none, if it is zero and if
neither clock comes to its end, the run ends with the same outcome for every observer, which was
shown the configuration after each transition, once and in order. -/
theorem observers_see_the_run {m : Machine} {l : Limits} {clock clock' : Clock} {outcome : Outcome}
    (h : m.EndsIn l clock outcome) (hclock : ∀ k, l.timeIsUp (clock k) = l.timeIsUp (clock' k)) :
    ∃ calls, Shown m l clock' outcome calls := by
  obtain ⟨n, hn⟩ := Machine.endsIn_iff.mp h
  exact ⟨n, (hn.change_clock hclock).shown⟩

/-- two cells, five nanoseconds and nine transitions -/
def narrowLimits : Limits := ⟨2, some ⟨0, 5, by decide⟩, some 9⟩

/-- the third cell is one too many, under a budget of time that neither clock uses up -/
theorem observers_see_the_run_turner :
    turner.EndsIn narrowLimits Clock.stopped (.exceeded .space) ∧
      (∀ k, narrowLimits.timeIsUp (Clock.stopped k) = narrowLimits.timeIsUp 4) ∧
      ∃ calls, Shown turner narrowLimits (fun _ => 4) (.exceeded .space) calls := by
  have h : turner.EndsIn narrowLimits Clock.stopped (.exceeded .space) := ⟨9, rfl⟩
  have hstopped : narrowLimits.timeIsUp 0 = false := by decide
  have hfour : narrowLimits.timeIsUp 4 = false := by decide
  have hclock : ∀ k, narrowLimits.timeIsUp (Clock.stopped k) = narrowLimits.timeIsUp 4 := fun _ =>
    hstopped.trans hfour.symm
  exact ⟨h, hclock, observers_see_the_run h hclock⟩

end Holdout
