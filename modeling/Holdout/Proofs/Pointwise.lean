import Mathlib.Data.List.Forall2

/-!
# Lists that are related entry by entry

Also the computations that may fail, which are traversals of such lists.

* `exists_of_mem_left`, `exists_of_mem_right`   every entry has its partner;
* `exists_forall₂_iff`      every entry of the first list finds a partner;
* `forall₂_congr_of_mem`    relations that agree on the first list;
* `forall₂_and_right_iff`   a condition on the second list;
* `forall₂_comp_iff`    two relations one after the other, entry by entry;
* `map_eq_map_iff_forall₂`  two lists with the same images;
* `bind_eq_ok_iff`      a computation in two parts succeeds exactly if both parts do;
* `mapM_eq_ok_iff`, `mapM_eq_some_iff`   a traversal succeeds exactly if it does so at every entry.
-/

namespace Holdout

open List

section
variable {α β γ : Type} {R : α → β → Prop} {S : β → γ → Prop}

theorem exists_of_mem_left {l : List α} {u : List β} (h : Forall₂ R l u) {a : α} (ha : a ∈ l) :
    ∃ b ∈ u, R a b := by
  induction h with
  | nil => cases ha
  | cons hab _ ih =>
    rcases mem_cons.mp ha with rfl | ha
    · exact ⟨_, mem_cons_self, hab⟩
    · obtain ⟨b, hb, hr⟩ := ih ha
      exact ⟨b, mem_cons_of_mem _ hb, hr⟩

theorem exists_of_mem_right {l : List α} {u : List β} (h : Forall₂ R l u) {b : β} (hb : b ∈ u) :
    ∃ a ∈ l, R a b :=
  exists_of_mem_left h.flip hb

theorem exists_forall₂_iff {l : List α} : (∃ u, Forall₂ R l u) ↔ ∀ a ∈ l, ∃ b, R a b := by
  constructor
  · intro ⟨u, h⟩ a ha
    obtain ⟨b, _, hab⟩ := exists_of_mem_left h ha
    exact ⟨b, hab⟩
  · intro h
    induction l with
    | nil => exact ⟨[], .nil⟩
    | cons a l ih =>
      obtain ⟨b, hab⟩ := h a mem_cons_self
      obtain ⟨u, hu⟩ := ih fun a' ha' => h a' (mem_cons_of_mem a ha')
      exact ⟨b :: u, .cons hab hu⟩

theorem forall₂_congr_of_mem {R' : α → β → Prop} {l : List α} {u : List β}
    (h : ∀ a ∈ l, ∀ b, R a b ↔ R' a b) : Forall₂ R l u ↔ Forall₂ R' l u := by
  induction l generalizing u with
  | nil => rw [forall₂_nil_left_iff, forall₂_nil_left_iff]
  | cons a l ih =>
    have ih' : ∀ u, Forall₂ R l u ↔ Forall₂ R' l u := fun _ =>
      ih fun a' ha' => h a' (mem_cons_of_mem a ha')
    cases u with
    | nil => exact ⟨nofun, nofun⟩
    | cons b u => rw [forall₂_cons, forall₂_cons, h a mem_cons_self b, ih' u]

theorem forall₂_and_right_iff {p : β → Prop} {l : List α} {u : List β} :
    Forall₂ (fun a b => R a b ∧ p b) l u ↔ Forall₂ R l u ∧ ∀ b ∈ u, p b := by
  constructor
  · intro h
    refine ⟨h.imp fun _ _ hab => hab.1, fun b hb => ?_⟩
    obtain ⟨a, _, hab⟩ := exists_of_mem_right h hb
    exact hab.2
  · rintro ⟨h, hp⟩
    exact ((forall₂_and_left u l).mpr ⟨hp, h.flip⟩).flip.imp fun _ _ hab => ⟨hab.2, hab.1⟩

theorem forall₂_comp_iff {l : List α} {w : List γ} :
    (∃ u, Forall₂ R l u ∧ Forall₂ S u w) ↔ Forall₂ (fun a c => ∃ b, R a b ∧ S b c) l w := by
  constructor
  · rintro ⟨u, hl, hw⟩
    induction hl generalizing w with
    | nil =>
      cases hw
      exact .nil
    | cons hab _ ih =>
      cases hw with
      | cons hbc hw => exact .cons ⟨_, hab, hbc⟩ (ih hw)
  · intro h
    induction h with
    | nil => exact ⟨[], .nil, .nil⟩
    | cons hac _ ih =>
      obtain ⟨b, hab, hbc⟩ := hac
      obtain ⟨u, hl, hw⟩ := ih
      exact ⟨b :: u, .cons hab hl, .cons hbc hw⟩

theorem map_eq_map_iff_forall₂ {f : α → γ} {g : β → γ} {l : List α} {u : List β} :
    l.map f = u.map g ↔ Forall₂ (fun a b => f a = g b) l u := by
  rw [← forall₂_eq_eq_eq, forall₂_map_left_iff, forall₂_map_right_iff]

end

theorem forall₂_replicate {α β : Type} {R : α → β → Prop} {a : α} {b : β} (h : R a b) (k : Nat) :
    Forall₂ R (replicate k a) (replicate k b) := by
  induction k with
  | zero => exact .nil
  | succ k ih => exact .cons h ih

/-! ## computations that may fail -/

theorem bind_eq_ok_iff {ε α β : Type} {x : Except ε α} {f : α → Except ε β} {b : β} :
    x >>= f = .ok b ↔ ∃ a, x = .ok a ∧ f a = .ok b := by
  cases x with
  | error e => simp [bind, Except.bind]
  | ok a => simp [bind, Except.bind]

theorem pure_eq_ok_iff {ε α : Type} {a b : α} : (pure a : Except ε α) = .ok b ↔ b = a := by
  constructor
  · intro h
    cases h
    rfl
  · rintro rfl
    rfl

theorem mapM_eq_ok_iff {ε α β : Type} {f : α → Except ε β} {l : List α} {u : List β} :
    l.mapM f = .ok u ↔ Forall₂ (fun a b => f a = .ok b) l u := by
  induction l generalizing u with
  | nil => rw [mapM_nil, pure_eq_ok_iff, forall₂_nil_left_iff]
  | cons a l ih =>
    rw [mapM_cons, bind_eq_ok_iff, forall₂_cons_left_iff]
    constructor
    · rintro ⟨b, hb, h⟩
      obtain ⟨v, hv, h⟩ := bind_eq_ok_iff.mp h
      exact ⟨b, v, hb, ih.mp hv, pure_eq_ok_iff.mp h⟩
    · rintro ⟨b, v, hb, hv, rfl⟩
      exact ⟨b, hb, bind_eq_ok_iff.mpr ⟨v, ih.mpr hv, rfl⟩⟩

theorem mapM_eq_some_iff {α β : Type} {f : α → Option β} {l : List α} {u : List β} :
    l.mapM f = some u ↔ Forall₂ (fun a b => f a = some b) l u := by
  induction l generalizing u with
  | nil =>
    rw [mapM_nil, forall₂_nil_left_iff]
    exact Option.some_inj.trans eq_comm
  | cons a l ih =>
    rw [mapM_cons, forall₂_cons_left_iff, Option.bind_eq_bind, Option.bind_eq_some_iff]
    constructor
    · intro ⟨b, hb, h⟩
      obtain ⟨v, hv, heq⟩ := Option.bind_eq_some_iff.mp h
      exact ⟨b, v, hb, ih.mp hv, (Option.some_inj.mp heq).symm⟩
    · intro ⟨b, v, hb, hv, hu⟩
      exact ⟨b, hb, Option.bind_eq_some_iff.mpr ⟨v, ih.mpr hv, congrArg some hu.symm⟩⟩

end Holdout
