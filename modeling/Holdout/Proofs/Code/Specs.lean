import Holdout.Proofs.Code.Grammar

/-!
# Reading specs and blocks

The reader takes a block apart from its left end and then looks at single characters.  It knows
all twenty-five letters whatever the number of blocks: a jump past the last block is refused by the
order check, over the whole code.

* `digitSymbol?_eq_some_iff`, `letterDirection?_eq_some_iff`, `letterState?_eq_some_iff`
                                the characters;
* `readSpec_ofChars_iff`        three characters are read exactly if they are a spec of a code with
                                a block for every letter;
* `exists_readBlock_iff`        the same for a block;
* `specText_iff_of_named`, `blockText_iff_of_named`   in a code of `n` blocks the jumps also go no
                                further than `n`.
-/

namespace Holdout.Code

/-! ## characters -/

theorem toNat_ofNat_of_lt {n : Nat} (h : n < 0xd800) : (Char.ofNat n).toNat = n := by
  have hvalid : n.isValidChar := Or.inl h
  rw [Char.ofNat, dif_pos hvalid]
  rfl

theorem ofNat_add_sub_toNat {base : Nat} {c : Char} (h : base ≤ c.toNat) :
    Char.ofNat (base + (c.toNat - base)) = c := by
  rw [Nat.add_sub_cancel' h, Char.ofNat_toNat]

theorem digitSymbol?_eq_some_iff {m : Nat} {c : Char} {symbol : Symbol} :
    digitSymbol? m c = some symbol ↔
      ∃ value, (decimalDigits.take m)[value]? = some c ∧ symbol = UInt8.ofNat value := by
  have hzero : '0'.toNat = 48 := rfl
  have hnine : '9'.toNat = 57 := rfl
  constructor
  · intro h
    unfold digitSymbol? at h
    split at h
    · next hc =>
      rw [Bool.and_eq_true, decide_eq_true_eq, Char.isDigit_iff_toNat] at hc
      obtain ⟨⟨hlow, hhigh⟩, hlt⟩ := hc
      refine ⟨c.toNat - '0'.toNat, ?_, (Option.some.inj h).symm⟩
      rw [getElem?_take_eq_some_iff, getElem?_decimalDigits, ofNat_add_sub_toNat hlow]
      exact ⟨hlt, by omega, rfl⟩
    · cases h
  · rintro ⟨value, h, rfl⟩
    rw [getElem?_take_eq_some_iff, getElem?_decimalDigits] at h
    obtain ⟨hlt, hten, rfl⟩ := h
    have hcode : (Char.ofNat ('0'.toNat + value)).toNat = '0'.toNat + value :=
      toNat_ofNat_of_lt (by omega)
    have hdigit : (Char.ofNat ('0'.toNat + value)).isDigit = true := by
      rw [Char.isDigit_iff_toNat, hcode]
      omega
    unfold digitSymbol?
    rw [hdigit, hcode, Nat.add_sub_cancel_left]
    simp [hlt]

theorem letterDirection?_eq_some_iff {c : Char} {d : Direction} :
    letterDirection? c = some d ↔ c = d.letter := by
  constructor
  · intro h
    unfold letterDirection? at h
    split at h
    · next hc =>
      cases h
      exact hc
    · split at h
      · next hc =>
        cases h
        exact hc
      · cases h
  · rintro rfl
    exact letterDirection?_letter d

theorem letterState?_eq_some_iff {c : Char} {state : Nat} :
    letterState? c = some state ↔ (c = 'Z' ∧ state = 0) ∨
      ∃ i, (capitalLetters.take namedStates)[i]? = some c ∧ state = i + 1 := by
  have hA : 'A'.toNat = 65 := rfl
  constructor
  · intro h
    unfold letterState? at h
    split at h
    · next hc => exact Or.inl ⟨hc, (Option.some.inj h).symm⟩
    · split at h
      · next hc =>
        rw [Bool.and_eq_true, decide_eq_true_eq, decide_eq_true_eq, Char.le_def, Char.le_def,
          UInt32.le_iff_toNat_le, UInt32.le_iff_toNat_le] at hc
        have hlow : 'A'.toNat ≤ c.toNat := hc.1
        have hhigh : c.toNat ≤ 'Y'.toNat := hc.2
        have hY : 'Y'.toNat = 89 := rfl
        refine Or.inr ⟨c.toNat - 'A'.toNat, ?_, (Option.some.inj h).symm⟩
        rw [getElem?_take_eq_some_iff, getElem?_capitalLetters, ofNat_add_sub_toNat hlow]
        exact ⟨show _ < 25 by omega, by omega, rfl⟩
      · cases h
  · rintro (⟨rfl, rfl⟩ | ⟨i, h, rfl⟩)
    · rfl
    · obtain ⟨hlt, hletter⟩ := getElem?_take_eq_some_iff.mp h
      have hlt : i < 25 := hlt
      rw [(getElem?_capitalLetters.mp hletter).2]
      interval_cases i <;> rfl

/-! ## specs -/

variable {m n : Nat}

/-- the two kinds of spec, character by character -/
theorem specText_iff {write shift jump : Char} {t : Transition} :
    SpecText m n [write, shift, jump] t ↔
      ([write, shift, jump] = placeholder ∧ t = Transition.undefined) ∨
      ((∃ value, (decimalDigits.take m)[value]? = some write ∧ t.write = UInt8.ofNat value) ∧
        shift = t.shift.letter ∧
        ((jump = 'Z' ∧ t.next = 0) ∨
          ∃ i, (capitalLetters.take (min n namedStates))[i]? = some jump ∧ t.next = i + 1)) := by
  constructor
  · intro h
    generalize htext : [write, shift, jump] = text at h
    cases h with
    | placeholder => exact Or.inl ⟨rfl, rfl⟩
    | halt d hdigit =>
      cases htext
      exact Or.inr ⟨⟨_, hdigit, rfl⟩, rfl, Or.inl ⟨rfl, rfl⟩⟩
    | jump d hdigit hletter =>
      cases htext
      exact Or.inr ⟨⟨_, hdigit, rfl⟩, rfl, Or.inr ⟨_, hletter, rfl⟩⟩
  · rintro (⟨htext, rfl⟩ | ⟨⟨value, hdigit, hwrite⟩, hshift, hjump⟩)
    · rw [htext]
      exact .placeholder
    · obtain ⟨symbol, d, next⟩ := t
      subst hshift hwrite
      rcases hjump with ⟨rfl, hnext⟩ | ⟨i, hletter, hnext⟩
      · subst hnext
        exact .halt d hdigit
      · subst hnext
        exact .jump d hdigit hletter

theorem readSpec_instruction_iff {state : Nat} {write shift jump : Char} {t : Transition} :
    readSpec m state (.instruction write shift jump) = .ok t ↔
      digitSymbol? m write = some t.write ∧ letterDirection? shift = some t.shift ∧
        letterState? jump = some t.next := by
  rw [readSpec]
  cases digitSymbol? m write with
  | none => simp
  | some symbol =>
    cases letterDirection? shift with
    | none => simp
    | some direction =>
      cases letterState? jump with
      | none => simp
      | some next =>
        obtain ⟨symbol', direction', next'⟩ := t
        simp

/-- a code with a block for every letter puts no bound on the jumps -/
theorem readSpec_ofChars_iff {state : Nat} {write shift jump : Char} {t : Transition} :
    readSpec m state (Spec.ofChars write shift jump) = .ok t ↔
      SpecText m namedStates [write, shift, jump] t := by
  rw [specText_iff, Nat.min_self, ← digitSymbol?_eq_some_iff, ← letterState?_eq_some_iff,
    ← letterDirection?_eq_some_iff, ← @readSpec_instruction_iff m state]
  by_cases hplace : [write, shift, jump] = placeholder
  · rw [Spec.ofChars, if_pos hplace]
    cases hplace
    constructor
    · intro h
      cases h
      exact Or.inl ⟨rfl, rfl⟩
    · rintro (⟨_, rfl⟩ | h)
      · rfl
      -- a dash is no direction
      · cases (readSpec_instruction_iff.mp h).2.1
  · rw [Spec.ofChars, if_neg hplace]
    constructor
    · exact Or.inr
    · rintro (⟨h, _⟩ | h)
      · exact absurd h hplace
      · exact h

/-- fewer blocks allow the jumps that do not pass the last one -/
theorem specText_iff_of_named {text : List Char} {t : Transition} :
    SpecText m n text t ↔ SpecText m namedStates text t ∧ t.next ≤ n := by
  constructor
  · intro h
    cases h with
    | placeholder => exact ⟨.placeholder, Nat.zero_le n⟩
    | halt d hdigit => exact ⟨.halt d hdigit, Nat.zero_le n⟩
    | jump d hdigit hletter =>
      obtain ⟨hlt, hletter⟩ := getElem?_take_eq_some_iff.mp hletter
      refine ⟨.jump d hdigit (getElem?_take_eq_some_iff.mpr ⟨?_, hletter⟩), ?_⟩
      · exact Nat.lt_of_lt_of_le hlt (Nat.min_le_right n 25)
      · exact Nat.lt_of_lt_of_le hlt (Nat.min_le_left n 25)
  · rintro ⟨h, hle⟩
    cases h with
    | placeholder => exact .placeholder
    | halt d hdigit => exact .halt d hdigit
    | jump d hdigit hletter =>
      obtain ⟨hlt, hletter⟩ := getElem?_take_eq_some_iff.mp hletter
      exact .jump d hdigit (getElem?_take_eq_some_iff.mpr ⟨Nat.lt_min.mpr ⟨hle, hlt⟩, hletter⟩)

/-! ## blocks -/

/-- a spec and the three characters it is made of -/
def Cuts (text : List Char) (s : Spec) : Prop :=
  ∃ write shift jump, text = [write, shift, jump] ∧ s = Spec.ofChars write shift jump

theorem specs_eq_ok_iff {block : List Char} {ss : List Spec} :
    specs block = .ok ss ↔
      ∃ texts : List (List Char), block = texts.flatten ∧ List.Forall₂ Cuts texts ss := by
  constructor
  · intro h
    fun_induction specs block generalizing ss with
    | case1 =>
      cases h
      exact ⟨[], rfl, .nil⟩
    | case2 => cases h
    | case3 => cases h
    | case4 write shift jump rest rs hrs ih =>
      cases h
      obtain ⟨texts, hrest, hcuts⟩ := ih hrs
      exact ⟨[write, shift, jump] :: texts, by rw [hrest]; rfl,
        .cons ⟨write, shift, jump, rfl, rfl⟩ hcuts⟩
    | case5 => cases h
  · rintro ⟨texts, rfl, hcuts⟩
    induction hcuts with
    | nil => rfl
    | cons hcut _ ih =>
      obtain ⟨write, shift, jump, rfl, rfl⟩ := hcut
      rw [List.flatten_cons, List.cons_append, List.cons_append, List.cons_append,
        List.nil_append, specs_cons, ih]
      rfl

theorem readBlock_eq_ok_iff {state : Nat} {ss : List Spec} {row : List Transition} :
    readBlock m state ss = .ok row ↔
      ss.length = m ∧ List.Forall₂ (fun s t => readSpec m state s = .ok t) ss row := by
  unfold readBlock readSpecs
  split
  · next hwidth => simp [hwidth, mapM_eq_ok_iff]
  · next hwidth => simp [hwidth]

theorem exists_readSpec_iff {state : Nat} {text : List Char} {t : Transition} :
    (∃ s, Cuts text s ∧ readSpec m state s = .ok t) ↔ SpecText m namedStates text t := by
  constructor
  · rintro ⟨s, ⟨write, shift, jump, rfl, rfl⟩, ht⟩
    exact readSpec_ofChars_iff.mp ht
  · intro h
    match text, h.length_eq, h with
    | [write, shift, jump], _, h =>
      exact ⟨_, ⟨write, shift, jump, rfl, rfl⟩, readSpec_ofChars_iff.mpr h⟩

/-- a block is read exactly if it is one of a code with a block for every letter -/
theorem exists_readBlock_iff {state : Nat} {block : List Char} {row : List Transition} :
    (∃ ss, specs block = .ok ss ∧ readBlock m state ss = .ok row) ↔
      BlockText m namedStates block row := by
  have hspecs : ∀ texts, (∃ ss, List.Forall₂ Cuts texts ss ∧
      List.Forall₂ (fun s t => readSpec m state s = .ok t) ss row) ↔
        List.Forall₂ (SpecText m namedStates) texts row := by
    intro texts
    rw [forall₂_comp_iff]
    simp only [exists_readSpec_iff]
  constructor
  · rintro ⟨ss, hss, hrow⟩
    obtain ⟨texts, hblock, hcuts⟩ := specs_eq_ok_iff.mp hss
    obtain ⟨hwidth, hread⟩ := readBlock_eq_ok_iff.mp hrow
    exact ⟨texts, hblock, hcuts.length_eq.trans hwidth, (hspecs texts).mp ⟨ss, hcuts, hread⟩⟩
  · rintro ⟨texts, hblock, hwidth, htexts⟩
    obtain ⟨ss, hcuts, hread⟩ := (hspecs texts).mpr htexts
    exact ⟨ss, specs_eq_ok_iff.mpr ⟨texts, hblock, hcuts⟩,
      readBlock_eq_ok_iff.mpr ⟨hcuts.length_eq.symm.trans hwidth, hread⟩⟩

theorem blockText_iff_of_named {text : List Char} {row : List Transition} :
    BlockText m n text row ↔ BlockText m namedStates text row ∧ ∀ t ∈ row, t.next ≤ n := by
  have hspecs : ∀ texts, List.Forall₂ (SpecText m n) texts row ↔
      List.Forall₂ (SpecText m namedStates) texts row ∧ ∀ t ∈ row, t.next ≤ n := by
    intro texts
    rw [← forall₂_and_right_iff]
    simp only [← specText_iff_of_named]
  constructor
  · rintro ⟨texts, htext, hwidth, htexts⟩
    obtain ⟨htexts, hnext⟩ := (hspecs texts).mp htexts
    exact ⟨⟨texts, htext, hwidth, htexts⟩, hnext⟩
  · rintro ⟨⟨texts, htext, hwidth, htexts⟩, hnext⟩
    exact ⟨texts, htext, hwidth, (hspecs texts).mpr ⟨htexts, hnext⟩⟩

end Holdout.Code
