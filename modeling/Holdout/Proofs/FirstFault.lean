import Holdout.Proofs.Pointwise

/-!
# The first fault of a list

A traversal that may fail stops at the first entry that it fails at, and the entries before it have
been passed.

* `FirstFault`              the entries before some entry are good, and it has a fault;
* `firstFault_cons_iff`     the fault is that of the head, or the head is good;
* `firstFault_iff_of_forall₂`   the same fault in two lists that are related entry by entry;
* `bind_eq_error_iff`, `mapM_eq_error_iff`   where a computation and a traversal fail.
-/

namespace Holdout

open List

section
variable {α β : Type} {Good : α → Prop} {Fault : List α → α → Prop}

/-- some entry has a fault, which may depend on what is before it, and all entries before it are
good -/
def FirstFault (Good : α → Prop) (Fault : List α → α → Prop) (l : List α) : Prop :=
  ∃ before a after, l = before ++ a :: after ∧ (∀ x ∈ before, Good x) ∧ Fault before a

theorem not_firstFault_nil : ¬FirstFault Good Fault [] := by
  rintro ⟨before, a, after, h, _⟩
  exact append_ne_nil_of_right_ne_nil before (cons_ne_nil a after) h.symm

theorem firstFault_cons_iff {a : α} {l : List α} :
    FirstFault Good Fault (a :: l) ↔
      Fault [] a ∨ (Good a ∧ FirstFault Good (fun before => Fault (a :: before)) l) := by
  constructor
  · rintro ⟨before, b, after, h, hgood, hfault⟩
    cases before with
    | nil =>
      cases h
      exact .inl hfault
    | cons a' before =>
      cases h
      exact .inr ⟨hgood a mem_cons_self, before, b, after, rfl,
        fun x hx => hgood x (mem_cons_of_mem a hx), hfault⟩
  · rintro (hfault | ⟨ha, before, b, after, rfl, hgood, hfault⟩)
    · exact ⟨[], a, l, rfl, fun x hx => absurd hx not_mem_nil, hfault⟩
    · exact ⟨a :: before, b, after, rfl, forall_mem_cons.mpr ⟨ha, hgood⟩, hfault⟩

theorem firstFault_iff_of_forall₂ {R : α → β → Prop} {Good' : β → Prop}
    {Fault' : List β → β → Prop} {l : List α} {u : List β} (h : Forall₂ R l u)
    (hgood : ∀ a b, R a b → (Good a ↔ Good' b))
    (hfault : ∀ as bs a b, Forall₂ R as bs → R a b → (Fault as a ↔ Fault' bs b)) :
    FirstFault Good Fault l ↔ FirstFault Good' Fault' u := by
  induction h generalizing Fault Fault' with
  | nil => exact iff_of_false not_firstFault_nil not_firstFault_nil
  | cons hab _ ih =>
    have hlater := ih fun as bs a b has hr => hfault (_ :: as) (_ :: bs) a b (.cons hab has) hr
    rw [firstFault_cons_iff, firstFault_cons_iff, hgood _ _ hab, hlater,
      hfault [] [] _ _ .nil hab]

end

/-! ## computations that may fail -/

theorem ok_ne_error {ε α : Type} (a : α) (e : ε) : (Except.ok a : Except ε α) ≠ .error e := by
  intro h
  cases h

theorem bind_eq_error_iff {ε α β : Type} {x : Except ε α} {f : α → Except ε β} {e : ε} :
    x >>= f = .error e ↔ x = .error e ∨ ∃ a, x = .ok a ∧ f a = .error e := by
  cases x with
  | error e' => simp [bind, Except.bind]
  | ok a => simp [bind, Except.bind]

/-- two computations one after the other, and what is made of their results -/
theorem bind_both_eq_error_iff {ε α β γ : Type} {x : Except ε α} {y : Except ε β} {f : α → β → γ}
    {e : ε} : (x >>= fun a => y >>= fun b => pure (f a b)) = .error e ↔
      x = .error e ∨ ((∃ a, x = .ok a) ∧ y = .error e) := by
  rw [bind_eq_error_iff]
  refine or_congr_right ?_
  constructor
  · rintro ⟨a, ha, h⟩
    rcases bind_eq_error_iff.mp h with h | ⟨_, _, h⟩
    · exact ⟨⟨a, ha⟩, h⟩
    · cases h
  · rintro ⟨⟨a, ha⟩, h⟩
    exact ⟨a, ha, bind_eq_error_iff.mpr (.inl h)⟩

theorem mapM_eq_error_iff {ε α β : Type} {f : α → Except ε β} {l : List α} {e : ε} :
    l.mapM f = .error e ↔ FirstFault (fun a => ∃ b, f a = .ok b) (fun _ a => f a = .error e) l := by
  induction l with
  | nil =>
    rw [mapM_nil]
    exact iff_of_false (ok_ne_error [] e) not_firstFault_nil
  | cons a l ih => rw [mapM_cons, bind_both_eq_error_iff, firstFault_cons_iff, ih]

end Holdout
