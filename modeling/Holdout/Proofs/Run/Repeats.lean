import Holdout.Proofs.Run.FirstEvent
import Holdout.Proofs.Run.Observers
import Holdout.Proofs.Run.Safety

/-!
# Configurations that come again

Only so many configurations of a closed table fit into a number of cells.  A run that takes more
transitions without halting or leaving these cells has come to one of them twice; from then on it
goes round in circles, since the counter has no part in what a configuration does next.

* `Config.scene`            what a configuration shows besides its counter;
* `Config.Alike`            equal but for the counter, kept by every step (`Alike.pass`);
* `Machine.Returns`         a run comes to one configuration twice, within a number of cells;
* `Machine.Returns.neverEnds`   then it never ends;
* `scenes`, `stepBound`     what there is to see in a number of cells, and how much that is;
* `Machine.returns_of_lt`   a run that is still going on after that many transitions returns;
* `large_budget_is_definitive`   so a larger budget of steps changes nothing.
-/

namespace Holdout

/-! ## all but the counter -/

theorem Tape.eq_of_cells {t u : Tape} (hcells : t.cells = u.cells) (hhead : t.head = u.head)
    (hblank : t.blank = u.blank) : t = u := by
  have hlength : t.left.reverse.length = u.left.reverse.length := by
    rw [List.length_reverse, List.length_reverse]
    exact hhead
  obtain ⟨hleft, hrest⟩ := List.append_inj hcells hlength
  obtain ⟨hread, hright⟩ := List.cons_eq_cons.mp hrest
  exact Tape.ext_parts (List.reverse_inj.mp hleft) hread hright hblank

namespace Config

/-- the state, the cells and the place of the head in them -/
def scene (c : Config) : Nat × List Symbol × Nat := (c.state, c.tape.cells, c.tape.head)

/-- two configurations that differ in their counters at most -/
structure Alike (c d : Config) : Prop where
  state_eq : c.state = d.state
  tape_eq : c.tape = d.tape

theorem Alike.refl (c : Config) : Alike c c := ⟨rfl, rfl⟩

theorem Alike.trans {c d e : Config} (h : Alike c d) (h' : Alike d e) : Alike c e :=
  ⟨h.state_eq.trans h'.state_eq, h.tape_eq.trans h'.tape_eq⟩

theorem alike_of_scene_eq {c d : Config} (h : c.scene = d.scene)
    (hblank : c.tape.blank = d.tape.blank) : Alike c d := by
  obtain ⟨hstate, hrest⟩ := Prod.mk.inj h
  obtain ⟨hcells, hhead⟩ := Prod.mk.inj hrest
  exact ⟨hstate, Tape.eq_of_cells hcells hhead hblank⟩

end Config

section
variable {m : Machine}

/-- the counter has no part in a step -/
theorem Config.Alike.pass {c d : Config} (h : Alike c d) : Alike (m.pass c) (m.pass d) := by
  have hget : m.table.get? d.state d.tape.read = m.table.get? c.state c.tape.read := by
    rw [h.state_eq, h.tape_eq]
  cases hstep : m.step c with
  | moved next =>
    obtain ⟨t, ht, rfl⟩ := Machine.step_eq_moved_iff.mp hstep
    have hstep' : m.step d = .moved (d.apply t) :=
      Machine.step_eq_moved_iff.mpr ⟨t, hget.trans ht, rfl⟩
    rw [Machine.pass_of_moved hstep, Machine.pass_of_moved hstep']
    have htape : (c.tape.write t.write).shift t.shift = (d.tape.write t.write).shift t.shift := by
      rw [h.tape_eq]
    exact ⟨rfl, htape⟩
  | halted =>
    have hstate := Machine.step_eq_halted_iff.mp hstep
    rw [h.state_eq] at hstate
    rw [Machine.pass_of_halted hstep,
      Machine.pass_of_halted (Machine.step_eq_halted_iff.mpr hstate)]
    exact h
  | stuck fault =>
    obtain ⟨hstate, hnone, _⟩ := Machine.step_eq_stuck_iff.mp hstep
    rw [h.state_eq] at hstate
    rw [Machine.pass_of_stuck hstep,
      Machine.pass_of_stuck (Machine.step_eq_stuck_iff.mpr ⟨hstate, hget.trans hnone, rfl⟩)]
    exact h

theorem Config.Alike.after {i k : Nat} (h : Alike (m.after i) (m.after k)) (n : Nat) :
    Alike (m.after (i + n)) (m.after (k + n)) := by
  induction n with
  | zero => exact h
  | succ n ih => exact ih.pass

end

/-! ## going round in circles -/

/-- the run comes to one configuration after `i` and again after `k` transitions, and has not left
the space until then -/
structure Machine.Returns (m : Machine) (space i k : Nat) : Prop where
  lt : i < k
  takes : m.Takes k
  visited_le : (m.after k).tape.visited ≤ space
  scene_eq : (m.after i).scene = (m.after k).scene

namespace Machine.Returns

variable {m : Machine} {space i k : Nat} (h : m.Returns space i k)
include h

theorem alike : Config.Alike (m.after i) (m.after k) := by
  apply Config.alike_of_scene_eq h.scene_eq
  rw [blank_after, blank_after]

/-- whatever a run comes to, it has come to before its return -/
theorem exists_alike (n : Nat) : ∃ j < k, Config.Alike (m.after j) (m.after n) := by
  induction n using Nat.strongRecOn with
  | ind n ih =>
    rcases Nat.lt_or_ge n k with hn | hn
    · exact ⟨n, hn, .refl _⟩
    · -- one round earlier the run was at the same place
      obtain ⟨r, rfl⟩ := Nat.exists_eq_add_of_le hn
      have hlt := h.lt
      obtain ⟨j, hj, hjr⟩ := ih (i + r) (by omega)
      exact ⟨j, hj, hjr.trans (h.alike.after r)⟩

/-- a run that returns goes on for ever, and never leaves the space -/
theorem neverEnds (clock : Clock) : m.NeverEnds ⟨space, none, none⟩ clock := by
  rw [neverEnds_iff]
  intro n
  obtain ⟨j, hj, halike⟩ := h.exists_alike n
  obtain ⟨next, hnext⟩ := h.takes j hj
  obtain ⟨t, ht, _⟩ := step_eq_moved_iff.mp hnext
  have hstate := state_ne_of_get? ht
  have hvisited : (m.after n).tape.visited ≤ space := by
    rw [← halike.tape_eq]
    exact Nat.le_trans (visited_after_mono (Nat.le_of_lt hj)) h.visited_le
  rw [halike.state_eq, halike.tape_eq] at ht
  rw [halike.state_eq] at hstate
  exact stop?_eq_none_iff.mpr
    ⟨⟨hvisited, hstate, rfl, rfl⟩, _, step_eq_moved_iff.mpr ⟨t, ht, rfl⟩⟩

end Machine.Returns

/-! ## how much there is to see -/

/-- the symbols of an alphabet -/
def alphabet (symbols : Nat) : Finset Symbol := (Finset.range symbols).image UInt8.ofNat

/-- the lists of a length over an alphabet -/
def words (symbols : Nat) : Nat → Finset (List Symbol)
  | 0 => {[]}
  | length + 1 => Finset.image₂ List.cons (alphabet symbols) (words symbols length)

/-- what a configuration that is not halted can show on at most `space` cells -/
def scenes (states symbols space : Nat) : Finset (Nat × List Symbol × Nat) :=
  (Finset.Icc 1 space).biUnion fun length =>
    Finset.Icc 1 states ×ˢ words symbols length ×ˢ Finset.range length

/-- as many transitions as there are such configurations -/
def stepBound (states symbols space : Nat) : Nat :=
  ∑ length ∈ Finset.Icc 1 space, states * length * symbols ^ length

theorem mem_alphabet {symbols : Nat} {a : Symbol} (h : a.toNat < symbols) :
    a ∈ alphabet symbols :=
  Finset.mem_image.mpr ⟨a.toNat, Finset.mem_range.mpr h, UInt8.ofNat_toNat⟩

theorem card_alphabet_le (symbols : Nat) : (alphabet symbols).card ≤ symbols := by
  have h := Finset.card_image_le (s := Finset.range symbols) (f := UInt8.ofNat)
  rwa [Finset.card_range] at h

theorem mem_words {symbols : Nat} {l : List Symbol} (h : ∀ a ∈ l, a.toNat < symbols) :
    l ∈ words symbols l.length := by
  induction l with
  | nil => exact Finset.mem_singleton_self []
  | cons a l ih =>
    exact Finset.mem_image₂_of_mem (mem_alphabet (h a List.mem_cons_self))
      (ih fun b hb => h b (List.mem_cons_of_mem a hb))

theorem card_words_le (symbols length : Nat) : (words symbols length).card ≤ symbols ^ length := by
  induction length with
  | zero => exact Nat.le_refl 1
  | succ length ih =>
    calc (words symbols (length + 1)).card
        ≤ (alphabet symbols).card * (words symbols length).card := Finset.card_image₂_le _ _ _
      _ ≤ symbols * symbols ^ length := Nat.mul_le_mul (card_alphabet_le symbols) ih
      _ = symbols ^ (length + 1) := (Nat.pow_succ').symm

theorem card_scenes_le (states symbols space : Nat) :
    (scenes states symbols space).card ≤ stepBound states symbols space := by
  refine Finset.card_biUnion_le.trans (Finset.sum_le_sum fun length _ => ?_)
  rw [Finset.card_product, Finset.card_product, Nat.card_Icc, Finset.card_range,
    Nat.add_sub_cancel, Nat.mul_comm (words symbols length).card, ← Nat.mul_assoc]
  exact Nat.mul_le_mul_left _ (card_words_le symbols length)

theorem InRange.scene_mem {symbols states space : Nat} {c : Config}
    (h : InRange symbols states c) (hstate : c.state ≠ haltState)
    (hspace : c.tape.visited ≤ space) : c.scene ∈ scenes states symbols space := by
  have hlength := c.tape.length_cells
  have hhead := h.head_lt
  have hwords := mem_words h.cells_lt
  rw [hlength] at hwords
  refine Finset.mem_biUnion.mpr ⟨c.tape.visited, Finset.mem_Icc.mpr ⟨by omega, hspace⟩, ?_⟩
  refine Finset.mem_product.mpr ⟨Finset.mem_Icc.mpr ⟨Nat.pos_of_ne_zero hstate, h.state_le⟩, ?_⟩
  exact Finset.mem_product.mpr ⟨hwords, Finset.mem_range.mpr hhead⟩

/-! ## long runs -/

namespace Machine

variable {m : Machine} {space : Nat}

theorem faultTime_of_closed (hclosed : m.table.Closed) : m.faultTime = ⊤ := by
  rw [faultTime, firstTime_eq_top_iff]
  intro k hstuck
  obtain ⟨fault, hstuck⟩ := hstuck
  exact (inRange_after hclosed k).step_ne_stuck fault hstuck

/-- a run of a closed table that is still going on in its space after the bound has come to some
configuration twice -/
theorem returns_of_lt (hclosed : m.table.Closed)
    (hhalt : (stepBound m.states m.symbols space : ℕ∞) < m.haltTime)
    (hspace : (stepBound m.states m.symbols space : ℕ∞) < m.overflowTime space) :
    ∃ i k, k ≤ stepBound m.states m.symbols space ∧ m.Returns space i k := by
  have hgoes : ∀ k ≤ stepBound m.states m.symbols space,
      (m.after k).state ≠ haltState ∧ (m.after k).tape.visited ≤ space := by
    intro k hk
    have hcast : (k : ℕ∞) ≤ (stepBound m.states m.symbols space : ℕ∞) := Nat.cast_le.mpr hk
    exact ⟨(lt_firstTime_iff.mp (hcast.trans_lt hhalt)).2,
      lt_overflowTime_iff.mp (hcast.trans_lt hspace)⟩
  have hmaps : ∀ k ∈ Finset.range (stepBound m.states m.symbols space + 1),
      (m.after k).scene ∈ scenes m.states m.symbols space := by
    intro k hk
    obtain ⟨hstate, hvisited⟩ := hgoes k (Nat.lt_succ_iff.mp (Finset.mem_range.mp hk))
    exact (inRange_after hclosed k).scene_mem hstate hvisited
  have hcard : (scenes m.states m.symbols space).card <
      (Finset.range (stepBound m.states m.symbols space + 1)).card := by
    rw [Finset.card_range]
    exact Nat.lt_succ_of_le (card_scenes_le _ _ _)
  -- more configurations than there are scenes
  obtain ⟨i, hi, k, hk, hne, hscene⟩ := Finset.exists_ne_map_eq_of_card_lt_of_maps_to hcard hmaps
  have hreturns : ∀ {i k : Nat}, k ∈ Finset.range (stepBound m.states m.symbols space + 1) →
      i < k → (m.after i).scene = (m.after k).scene →
        ∃ i k, k ≤ stepBound m.states m.symbols space ∧ m.Returns space i k := by
    intro i k hk hlt hscene
    have hle := Nat.lt_succ_iff.mp (Finset.mem_range.mp hk)
    have hcast : (k : ℕ∞) ≤ (stepBound m.states m.symbols space : ℕ∞) := Nat.cast_le.mpr hle
    have htakes : m.Takes k := by
      refine takes_iff.mpr ⟨(hcast.trans_lt hhalt).le, ?_⟩
      rw [faultTime_of_closed hclosed]
      exact le_top
    exact ⟨i, k, hle, hlt, htakes, (hgoes k hle).2, hscene⟩
  rcases Nat.lt_or_gt_of_ne hne with hlt | hlt
  · exact hreturns hk hlt hscene
  · exact hreturns hi hlt hscene.symm

/-- so such a run goes on for ever -/
theorem times_eq_top_of_lt (hclosed : m.table.Closed)
    (hhalt : (stepBound m.states m.symbols space : ℕ∞) < m.haltTime)
    (hspace : (stepBound m.states m.symbols space : ℕ∞) < m.overflowTime space) :
    m.haltTime = ⊤ ∧ m.overflowTime space = ⊤ := by
  obtain ⟨_, _, _, hreturns⟩ := returns_of_lt hclosed hhalt hspace
  obtain ⟨hoverflow, hhalts, _, _⟩ :=
    neverEnds_untimed_iff.mp (hreturns.neverEnds Clock.stopped)
  exact ⟨hhalts, hoverflow⟩

/-- a closed table halts or leaves the space within the bound, if it does so at all -/
theorem le_stepBound_of_ne_top (hclosed : m.table.Closed)
    (h : m.haltTime ≠ ⊤ ∨ m.overflowTime space ≠ ⊤) :
    m.haltTime ≤ stepBound m.states m.symbols space ∨
      m.overflowTime space ≤ stepBound m.states m.symbols space := by
  by_contra hlt
  rw [not_or, not_le, not_le] at hlt
  obtain ⟨hhalt, hspace⟩ := times_eq_top_of_lt hclosed hlt.1 hlt.2
  rcases h with h | h
  · exact h hhalt
  · exact h hspace

theorem endsAt_le_stepBound (hclosed : m.table.Closed) {clock : Clock} {n : Nat}
    {outcome : Outcome} (h : m.EndsAt ⟨space, none, none⟩ clock n outcome) :
    n ≤ stepBound m.states m.symbols space := by
  obtain ⟨hspace, hhalt, _, _⟩ := stopAt_eq_none_before_iff.mp h.2
  by_contra hlt
  have hcast : (stepBound m.states m.symbols space : ℕ∞) < n := Nat.cast_lt.mpr (not_le.mp hlt)
  obtain ⟨_, _, _, hreturns⟩ :=
    returns_of_lt hclosed (hcast.trans_le hhalt) (hcast.trans_le hspace)
  have hnone := neverEnds_iff.mp (hreturns.neverEnds clock) n
  rw [h.1] at hnone
  cases hnone

/-- a run that its budget of steps ended goes on for ever, if the budget was that large -/
theorem neverEnds_of_large_budget (hclosed : m.table.Closed) {clock : Clock} {budget : Nat}
    (hbound : stepBound m.states m.symbols space ≤ budget)
    (h : m.EndsIn ⟨space, none, some budget⟩ clock (.exceeded .steps)) :
    m.haltTime = ⊤ ∧ m.overflowTime space = ⊤ := by
  obtain ⟨hhalt, hspace, _⟩ := endsIn_steps_iff.mp h
  have hcast : (stepBound m.states m.symbols space : ℕ∞) ≤ budget := Nat.cast_le.mpr hbound
  exact times_eq_top_of_lt hclosed (hcast.trans_lt hhalt) (hcast.trans_lt hspace)

end Machine

/-- **A large budget of steps is definitive.**  A decoded machine that is still going on after as
many transitions as there are configurations on `space` cells goes on under every larger budget and,
without one, for ever.  So a decoded machine that halts or leaves the space does so within the
bound, and it does neither exactly if it comes to some configuration twice. -/
theorem large_budget_is_definitive {symbols : Nat} {m : Machine} (h : Decoded symbols m)
    (space : Nat) (clock : Clock) :
    let bound := stepBound m.states symbols space
    (∀ budget, bound ≤ budget →
      m.EndsIn ⟨space, none, some budget⟩ clock (.exceeded .steps) →
        (∀ more, budget ≤ more → m.EndsIn ⟨space, none, some more⟩ clock (.exceeded .steps)) ∧
          m.NeverEnds ⟨space, none, none⟩ clock) ∧
    (∀ outcome, m.EndsIn ⟨space, none, none⟩ clock outcome →
      ∃ n ≤ bound, m.EndsAt ⟨space, none, none⟩ clock n outcome) ∧
    (m.haltTime ≠ ⊤ ∨ m.overflowTime space ≠ ⊤ →
      m.haltTime ≤ bound ∨ m.overflowTime space ≤ bound) ∧
    (m.NeverEnds ⟨space, none, none⟩ clock ↔ ∃ i k, k ≤ bound ∧ m.Returns space i k) := by
  intro bound
  have hclosed := h.closed
  have hfault := Machine.faultTime_of_closed hclosed
  have hbound : bound = stepBound m.states m.symbols space := by rw [h.symbols_eq]
  rw [hbound]
  refine ⟨?_, ?_, Machine.le_stepBound_of_ne_top hclosed, ?_⟩
  · intro budget hle hsteps
    obtain ⟨hhalt, hspace⟩ := Machine.neverEnds_of_large_budget hclosed hle hsteps
    constructor
    · intro more _
      refine Machine.endsIn_steps_iff.mpr ?_
      rw [hhalt, hspace, hfault]
      exact ⟨ENat.natCast_lt_top more, ENat.natCast_lt_top more, le_top⟩
    · exact Machine.neverEnds_untimed_iff.mpr ⟨hspace, hhalt, hfault, rfl⟩
  · intro outcome hends
    obtain ⟨n, hn⟩ := Machine.endsIn_iff.mp hends
    exact ⟨n, Machine.endsAt_le_stepBound hclosed hn, hn⟩
  · constructor
    · intro hnever
      obtain ⟨hspace, hhalt, _, _⟩ := Machine.neverEnds_untimed_iff.mp hnever
      apply Machine.returns_of_lt hclosed
      · rw [hhalt]
        exact ENat.natCast_lt_top _
      · rw [hspace]
        exact ENat.natCast_lt_top _
    · intro ⟨_, _, _, hreturns⟩
      exact hreturns.neverEnds clock

/-- a machine that goes to and fro on two cells -/
def pendulum : Machine :=
  ⟨"1RB0RB_0LA---", Table.ofList 2 [⟨1, .right, 2⟩, ⟨0, .right, 2⟩, ⟨0, .left, 1⟩,
    Transition.undefined], 0, Nat.two_pos⟩

/-- twenty transitions are enough to know that it never leaves its two cells -/
theorem large_budget_is_definitive_pendulum :
    decode pendulum.code 2 = .ok pendulum ∧ stepBound pendulum.states 2 2 = 20 ∧
      pendulum.EndsIn ⟨2, none, some 20⟩ Clock.stopped (.exceeded .steps) ∧
      (∀ more, 20 ≤ more →
        pendulum.EndsIn ⟨2, none, some more⟩ Clock.stopped (.exceeded .steps)) ∧
      pendulum.NeverEnds ⟨2, none, none⟩ Clock.stopped := by
  have hdecode : decode pendulum.code 2 = .ok pendulum := rfl
  have hbound : stepBound pendulum.states 2 2 = 20 := by decide
  have hends : pendulum.EndsIn ⟨2, none, some 20⟩ Clock.stopped (.exceeded .steps) := ⟨21, rfl⟩
  obtain ⟨hbudgets, _⟩ := large_budget_is_definitive (.decode hdecode) 2 Clock.stopped
  obtain ⟨hmore, hnever⟩ := hbudgets 20 (Nat.le_of_eq hbound) hends
  exact ⟨hdecode, hbound, hends, hmore, hnever⟩

end Holdout
