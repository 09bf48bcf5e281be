import Holdout.Proofs.Run.Observers

/-!
# Two machines side by side

Two machines run in step as long as their configurations stay related: related configurations look
alike to the limits, and a move leads from them to related ones or meets the same fault.  Then the
runs end alike, and observers who find the same in related configurations see the same.

* `Simulates`              what the machines and the relation have to keep;
* `Simulates.step_cases`   one step of both machines, `Simulates.after` any number;
* `Simulates.stop?_eq`     what ends a run ends the other one;
* `Simulates.endsAt_iff`   both runs end in the same place;
* `Simulates.observe_eq`, `Simulates.run_eq`, `Simulates.trace_eq`   whole runs.
-/

namespace Holdout

/-- related configurations are alike in all that the limits look at, and moves keep them related -/
structure Simulates (m m' : Machine) (R : Config → Config → Prop) : Prop where
  start : R (Config.start m) (Config.start m')
  state_eq : ∀ {c c' : Config}, R c c' → c'.state = c.state
  steps_eq : ∀ {c c' : Config}, R c c' → c'.steps = c.steps
  visited_eq : ∀ {c c' : Config}, R c c' → c'.tape.visited = c.tape.visited
  score_eq : ∀ {c c' : Config}, R c c' → c'.tape.score = c.tape.score
  move : ∀ {c c' : Config}, R c c' →
    (∃ next next', m.move c = .ok next ∧ m'.move c' = .ok next' ∧ R next next') ∨
      ∃ fault, m.move c = .error fault ∧ m'.move c' = .error fault

namespace Simulates

variable {m m' : Machine} {R : Config → Config → Prop} (h : Simulates m m' R) {c c' : Config}
include h

/-! ## one step -/

theorem isHalted_eq (hc : R c c') : c'.isHalted = c.isHalted := by
  rw [Config.isHalted, Config.isHalted, h.state_eq hc]

theorem step_cases (hc : R c c') :
    (∃ next next', m.step c = .moved next ∧ m'.step c' = .moved next' ∧ R next next') ∨
      (m.step c = .halted ∧ m'.step c' = .halted) ∨
      ∃ fault, m.step c = .stuck fault ∧ m'.step c' = .stuck fault := by
  have hhalted := h.isHalted_eq hc
  cases h0 : c.isHalted with
  | true =>
    exact .inr (.inl ⟨Machine.step_of_isHalted h0, Machine.step_of_isHalted (hhalted.trans h0)⟩)
  | false =>
    have hstate := Config.isHalted_eq_false_iff.mp h0
    have hstate' := Config.isHalted_eq_false_iff.mp (hhalted.trans h0)
    rcases h.move hc with ⟨next, next', hm, hm', hnext⟩ | ⟨fault, hm, hm'⟩
    · exact .inl ⟨next, next', Machine.move_eq_ok_iff.mp hm, Machine.move_eq_ok_iff.mp hm', hnext⟩
    · exact .inr (.inr ⟨fault, (Machine.move_eq_error_iff hstate).mp hm,
        (Machine.move_eq_error_iff hstate').mp hm'⟩)

theorem pass (hc : R c c') : R (m.pass c) (m'.pass c') := by
  rcases h.step_cases hc with ⟨next, next', hs, hs', hnext⟩ | ⟨hs, hs'⟩ | ⟨fault, hs, hs'⟩
  · rw [Machine.pass_of_moved hs, Machine.pass_of_moved hs']
    exact hnext
  · rw [Machine.pass_of_halted hs, Machine.pass_of_halted hs']
    exact hc
  · rw [Machine.pass_of_stuck hs, Machine.pass_of_stuck hs']
    exact hc

theorem after (k : Nat) : R (m.after k) (m'.after k) := by
  induction k with
  | zero => exact h.start
  | succ k ih => exact h.pass ih

/-- the same is made of the configurations that both machines come to -/
theorem foldl_after_eq {σ : Type} {observer observer' : σ → Config → σ}
    (hseen : ∀ seen c c', R c c' → observer' seen c' = observer seen c) (ks : List Nat)
    (first : σ) :
    (ks.map m'.after).foldl observer' first = (ks.map m.after).foldl observer first := by
  induction ks generalizing first with
  | nil => rfl
  | cons k ks ih =>
    rw [List.map_cons, List.map_cons, List.foldl_cons, List.foldl_cons, hseen first _ _ (h.after k),
      ih]

/-! ## the end of a run -/

theorem verdict?_eq (hc : R c c') (l : Limits) (passed : Nat) :
    l.verdict? passed c' = l.verdict? passed c := by
  rw [Limits.verdict?, Limits.verdict?, h.visited_eq hc, h.isHalted_eq hc, h.score_eq hc,
    h.steps_eq hc]

theorem stop?_eq (hc : R c c') (l : Limits) (passed : Nat) :
    m'.stop? l passed c' = m.stop? l passed c := by
  rw [Machine.stop?, Machine.stop?, h.verdict?_eq hc]
  rcases h.move hc with ⟨next, next', hm, hm', _⟩ | ⟨fault, hm, hm'⟩
  · rw [hm, hm']
  · rw [hm, hm']

section
variable {l : Limits} {clock clock' : Clock}
  (hclock : ∀ k, l.timeIsUp (clock k) = l.timeIsUp (clock' k))
include hclock

theorem stopAt_eq (k : Nat) : m'.stopAt l clock' k = m.stopAt l clock k := by
  rw [Machine.stopAt_congr hclock, Machine.stopAt, Machine.stopAt, h.stop?_eq (h.after k),
    h.steps_eq (h.after k)]

theorem endsAt_iff {n : Nat} {outcome : Outcome} :
    m'.EndsAt l clock' n outcome ↔ m.EndsAt l clock n outcome := by
  have hstop : m'.stopAt l clock' = m.stopAt l clock := funext (h.stopAt_eq hclock)
  rw [Machine.EndsAt, Machine.EndsAt, hstop]

/-! ## whole runs -/

/-- observers who make the same of related configurations end with the same -/
theorem observe_eq {σ : Type} {observer observer' : σ → Config → σ}
    (hseen : ∀ seen c c', R c c' → observer' seen c' = observer seen c) (patience : Nat)
    (first : σ) : m'.observe l observer' patience first clock' =
      m.observe l observer patience first clock := by
  apply Option.ext
  rintro ⟨outcome, last⟩
  rw [Machine.observe_eq_some_iff, Machine.observe_eq_some_iff]
  simp only [h.endsAt_iff hclock, h.foldl_after_eq hseen]

theorem run_eq (patience : Nat) : m'.run l patience clock' = m.run l patience clock := by
  have hobserve : m'.observe l (fun seen _ => seen) patience () clock' =
      m.observe l (fun seen _ => seen) patience () clock := by
    refine h.observe_eq hclock ?_ patience ()
    exact fun _ _ _ _ => rfl
  rw [Machine.run, Machine.run, hobserve]

/-- if the snapshots of related configurations are told by a function, so are those of the trace -/
theorem trace_eq {f : Snapshot → Snapshot}
    (hshown : ∀ c c', R c c' → Snapshot.ofConfig c' = f (Snapshot.ofConfig c))
    (most patience : Nat) : m'.trace l most patience clock' =
      (m.trace l most patience clock).map (Prod.map id (List.map f)) := by
  have hkept : ∀ n, ((m'.observed n).map Snapshot.ofConfig).take most =
      (((m.observed n).map Snapshot.ofConfig).take most).map f := by
    intro n
    rw [Machine.observed, Machine.observed, List.map_take, List.map_map, List.map_map, List.map_map]
    exact congrArg (List.take most) (List.map_congr_left fun k _ => hshown _ _ (h.after k))
  apply Option.ext
  rintro ⟨outcome, kept'⟩
  rw [Machine.trace_eq_some_iff, Option.map_eq_some_iff]
  constructor
  · rintro ⟨n, hlt, hn, hsnapshots⟩
    have hn' := (h.endsAt_iff hclock).mp hn
    refine ⟨_, Machine.trace_eq_some_iff.mpr ⟨n, hlt, hn', rfl⟩, ?_⟩
    rw [hsnapshots, hkept]
    rfl
  · rintro ⟨⟨o, kept⟩, htrace, heq⟩
    obtain ⟨n, hlt, hn, hsnapshots⟩ := Machine.trace_eq_some_iff.mp htrace
    cases heq
    exact ⟨n, hlt, (h.endsAt_iff hclock).mpr hn, by rw [hsnapshots, hkept]⟩

end

end Simulates

end Holdout
