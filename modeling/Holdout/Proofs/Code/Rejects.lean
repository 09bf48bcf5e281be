import Holdout.Proofs.Code.Breaks
import Holdout.Proofs.Code.Canonical

/-!
# Why a code is refused

A code can be wrong in several ways at once.  Its faults have an order, said here without reading
anything, and the first one is reported.

* `SpecFault`         the first bad character of a spec;
* `BlockFault`        a block of the wrong width, or its first bad spec;
* `JumpsTo`, `LastJump`   the letters that the specs of a code jump to, and the greatest of them;
* `FirstViolation`    the alphabet, the layout, the letters, the blocks one by one, the blank;
* `rejected_with_first_violation`   a code is refused exactly with its first violation.
-/

namespace Holdout.Code

variable {m state : Nat} {text : List Char} {e : DecodeError}

/-! ## the order of the violations -/

/-- a text has a meaning as a spec, if there is a block for every letter -/
def SoundSpec (m : Nat) (text : List Char) : Prop := ∃ t, SpecText m namedStates text t

/-- the first bad character of a spec: what it writes, where it moves, or where it jumps -/
inductive SpecFault (m state : Nat) : List Char → DecodeError → Prop
  | write {write shift jump : Char} (hplace : [write, shift, jump] ≠ ['-', '-', '-'])
    (hwrite : write ∉ decimalDigits.take m) :
    SpecFault m state [write, shift, jump] (.invalidWrite state write)
  | move {write shift jump : Char} (hwrite : write ∈ decimalDigits.take m)
    (hshift : shift ≠ 'L' ∧ shift ≠ 'R') :
    SpecFault m state [write, shift, jump] (.invalidMove state shift)
  | jump {write shift jump : Char} (hwrite : write ∈ decimalDigits.take m)
    (hshift : shift = 'L' ∨ shift = 'R') (hjump : jump ∉ capitalLetters) :
    SpecFault m state [write, shift, jump] (.invalidJump state jump)

def SoundBlock (m : Nat) (block : List Char) : Prop := ∃ row, BlockText m namedStates block row

/-- the width of a block is wrong, or it is right and one of its specs is the first bad one -/
inductive BlockFault (m state : Nat) (block : List Char) : DecodeError → Prop
  | width {texts : List (List Char)} (hcut : CutInto block texts) (hwidth : texts.length ≠ m) :
    BlockFault m state block (.blockWidth state texts.length m)
  | spec {texts : List (List Char)} {e : DecodeError} (hcut : CutInto block texts)
    (hwidth : texts.length = m)
    (hfault : FirstFault (SoundSpec m) (fun _ text => SpecFault m state text e) texts) :
    BlockFault m state block e

/-- some spec of the text other than the placeholder jumps to a letter -/
def JumpsTo (text : List Char) (letter : Char) : Prop :=
  ∃ block ∈ text.splitOn '_', ∃ texts, CutInto block texts ∧
    ∃ write shift, [write, shift, letter] ∈ texts ∧ [write, shift, letter] ≠ ['-', '-', '-']

/-- a letter is that of a state, counted from zero -/
def Names (letter : Char) (i : Nat) : Prop := (capitalLetters.take 25)[i]? = some letter

/-- of the letters of states that the text jumps to this one stands last in the alphabet -/
structure LastJump (text : List Char) (letter : Char) (i : Nat) : Prop where
  names : Names letter i
  jumps : JumpsTo text letter
  last : ∀ other j, JumpsTo text other → Names other j → j ≤ i

/-- no spec jumps past the last block -/
def Ordered (text : List Char) : Prop :=
  ∀ letter i, JumpsTo text letter → Names letter i → i + 1 ≤ (text.splitOn '_').length

/-- the first violation of a text as a code over an alphabet of `m` symbols with a blank; each kind
asks that there is none of the kinds above it -/
inductive FirstViolation (text : List Char) (m : Nat) (blank : Symbol) : DecodeError → Prop
  | alphabetSize (h : ¬(1 ≤ m ∧ m ≤ 10)) : FirstViolation text m blank (.alphabetSize m)
  | misfit {place : Misfit} {position : Nat} (hm : 1 ≤ m ∧ m ≤ 10)
    (h : BreaksAt text position place.missing) (hplace : place.Marks text position) :
    FirstViolation text m blank (.misfit place)
  | stateOrder {letter : Char} {i : Nat} (hm : 1 ≤ m ∧ m ≤ 10) (hfits : Fits text)
    (h : LastJump text letter i) (hpast : (text.splitOn '_').length < i + 1) :
    FirstViolation text m blank (.stateOrder letter (text.splitOn '_').length)
  | block {e : DecodeError} (hm : 1 ≤ m ∧ m ≤ 10) (hfits : Fits text) (hordered : Ordered text)
    (h : FirstFault (SoundBlock m)
      (fun before block => BlockFault m (before.length + 1) block e) (text.splitOn '_')) :
    FirstViolation text m blank e
  | invalidBlank (hm : 1 ≤ m ∧ m ≤ 10) (hcode : ∃ rows, CodeText m text rows)
    (h : m ≤ blank.toNat) : FirstViolation text m blank (.invalidBlank blank m)

/-! ## specs -/

theorem digitSymbol?_eq_none_iff {c : Char} :
    digitSymbol? m c = none ↔ c ∉ decimalDigits.take m := by
  rw [Option.eq_none_iff_forall_ne_some]
  constructor
  · intro h hmem
    obtain ⟨value, hvalue⟩ := List.mem_iff_getElem?.mp hmem
    exact h _ (digitSymbol?_eq_some_iff.mpr ⟨value, hvalue, rfl⟩)
  · intro h symbol hsymbol
    obtain ⟨value, hvalue, _⟩ := digitSymbol?_eq_some_iff.mp hsymbol
    exact h (List.mem_of_getElem? hvalue)

theorem letterDirection?_eq_none_iff {c : Char} :
    letterDirection? c = none ↔ c ≠ 'L' ∧ c ≠ 'R' := by
  unfold letterDirection?
  by_cases hright : c = 'R'
  · simp [hright]
  · by_cases hleft : c = 'L'
    · simp [hleft]
    · simp [hright, hleft]

theorem letterState?_eq_none_iff {c : Char} : letterState? c = none ↔ c ∉ capitalLetters := by
  have hletters : capitalLetters = capitalLetters.take namedStates ++ ['Z'] := rfl
  rw [Option.eq_none_iff_forall_ne_some, hletters, List.mem_append, List.mem_singleton, not_or]
  constructor
  · intro h
    refine ⟨fun hmem => ?_, fun hz => ?_⟩
    · obtain ⟨i, hi⟩ := List.mem_iff_getElem?.mp hmem
      exact h _ (letterState?_eq_some_iff.mpr (.inr ⟨i, hi, rfl⟩))
    · exact h _ (letterState?_eq_some_iff.mpr (.inl ⟨hz, rfl⟩))
  · rintro ⟨hnamed, hz⟩ next hnext
    rcases letterState?_eq_some_iff.mp hnext with ⟨hc, _⟩ | ⟨i, hi, _⟩
    · exact hz hc
    · exact hnamed (List.mem_of_getElem? hi)

theorem readSpec_instruction_eq_error_iff {write shift jump : Char} :
    readSpec m state (.instruction write shift jump) = .error e ↔
      (digitSymbol? m write = none ∧ e = .invalidWrite state write) ∨
      (digitSymbol? m write ≠ none ∧ letterDirection? shift = none ∧
        e = .invalidMove state shift) ∨
      (digitSymbol? m write ≠ none ∧ letterDirection? shift ≠ none ∧
        letterState? jump = none ∧ e = .invalidJump state jump) := by
  rw [readSpec]
  cases digitSymbol? m write with
  | none => simp [eq_comm]
  | some symbol =>
    cases letterDirection? shift with
    | none => simp [eq_comm]
    | some direction =>
      cases letterState? jump with
      | none => simp [eq_comm]
      | some next => simp

theorem specFault_iff {write shift jump : Char} : SpecFault m state [write, shift, jump] e ↔
    [write, shift, jump] ≠ placeholder ∧
      readSpec m state (.instruction write shift jump) = .error e := by
  have hdash : '-' ∉ decimalDigits.take m := fun h => absurd (List.mem_of_mem_take h) (by decide)
  have hne : write ∈ decimalDigits.take m → [write, shift, jump] ≠ placeholder := by
    rintro hwrite heq
    cases heq
    exact hdash hwrite
  rw [readSpec_instruction_eq_error_iff]
  simp only [ne_eq, digitSymbol?_eq_none_iff, letterDirection?_eq_none_iff,
    letterState?_eq_none_iff, not_not]
  constructor
  · intro h
    generalize htext : [write, shift, jump] = spec at h
    cases h with
    | write hplace hwrite =>
      cases htext
      exact ⟨hplace, .inl ⟨hwrite, rfl⟩⟩
    | move hwrite hshift =>
      cases htext
      exact ⟨hne hwrite, .inr (.inl ⟨hwrite, hshift, rfl⟩)⟩
    | jump hwrite hshift hjump =>
      cases htext
      refine ⟨hne hwrite, .inr (.inr ⟨hwrite, ?_, hjump, rfl⟩)⟩
      rintro ⟨hleft, hright⟩
      exact hshift.elim hleft hright
  · rintro ⟨hplace, ⟨hwrite, rfl⟩ | ⟨hwrite, hshift, rfl⟩ | ⟨hwrite, hshift, hjump, rfl⟩⟩
    · exact .write hplace hwrite
    · exact .move hwrite hshift
    · refine .jump hwrite ?_ hjump
      by_contra hnot
      exact hshift (not_or.mp hnot)

/-- three characters are refused as a spec exactly with their first bad character -/
theorem readSpec_ofChars_eq_error_iff {write shift jump : Char} :
    readSpec m state (Spec.ofChars write shift jump) = .error e ↔
      SpecFault m state [write, shift, jump] e := by
  rw [specFault_iff, Spec.ofChars]
  split
  · next hplace => exact iff_of_false (ok_ne_error Transition.undefined e) fun h => h.1 hplace
  · next hplace => exact (and_iff_right hplace).symm

theorem exists_readSpec_ofChars_iff {write shift jump : Char} :
    (∃ t, readSpec m state (Spec.ofChars write shift jump) = .ok t) ↔
      SoundSpec m [write, shift, jump] :=
  exists_congr fun _ => readSpec_ofChars_iff

/-! ## blocks -/

theorem readSpecs_eq_error_iff {texts : List (List Char)} {ss : List Spec}
    (h : List.Forall₂ Cuts texts ss) : readSpecs m state ss = .error e ↔
      FirstFault (SoundSpec m) (fun _ text => SpecFault m state text e) texts := by
  rw [readSpecs, mapM_eq_error_iff]
  refine (firstFault_iff_of_forall₂ h ?_ ?_).symm
  · rintro _ _ ⟨write, shift, jump, rfl, rfl⟩
    exact exists_readSpec_ofChars_iff.symm
  · rintro _ _ _ _ _ ⟨write, shift, jump, rfl, rfl⟩
    exact readSpec_ofChars_eq_error_iff.symm

theorem readBlock_eq_error_iff {block : List Char} {ss : List Spec} (h : specs block = .ok ss) :
    readBlock m state ss = .error e ↔ BlockFault m state block e := by
  obtain ⟨texts, rfl, hcuts⟩ := specs_eq_ok_iff.mp h
  have hcut := cutInto_of_cuts hcuts
  rw [readBlock, ← hcuts.length_eq]
  constructor
  · intro hread
    split at hread
    · next hwidth => exact .spec hcut hwidth ((readSpecs_eq_error_iff hcuts).mp hread)
    · next hwidth =>
      cases hread
      exact .width hcut hwidth
  · intro hfault
    cases hfault with
    | width hcut' hwidth =>
      cases hcut.unique hcut'
      rw [if_neg hwidth]
    | spec hcut' hwidth hfault =>
      cases hcut.unique hcut'
      rw [if_pos hwidth]
      exact (readSpecs_eq_error_iff hcuts).mpr hfault

theorem exists_readBlock_iff_soundBlock {block : List Char} {ss : List Spec}
    (h : specs block = .ok ss) :
    (∃ row, readBlock m state ss = .ok row) ↔ SoundBlock m block := by
  refine exists_congr fun row => ?_
  rw [← @exists_readBlock_iff m state, h]
  simp

theorem readBlocks_cons_eq_error_iff {ss : List Spec} {sss : List (List Spec)} :
    readBlocks m state (ss :: sss) = .error e ↔ readBlock m state ss = .error e ∨
      ((∃ row, readBlock m state ss = .ok row) ∧ readBlocks m (state + 1) sss = .error e) := by
  rw [readBlocks, bind_both_eq_error_iff]

theorem readBlocks_eq_error_iff {bs : List (List Char)} {sss : List (List Spec)}
    (h : List.Forall₂ (fun block ss => specs block = .ok ss) bs sss) :
    readBlocks m state sss = .error e ↔ FirstFault (SoundBlock m)
      (fun before block => BlockFault m (before.length + state) block e) bs := by
  induction h generalizing state with
  | nil => exact iff_of_false (ok_ne_error [] e) not_firstFault_nil
  | cons hblock _ ih =>
    have hshift : ∀ k, k + 1 + state = k + (state + 1) := by omega
    rw [readBlocks_cons_eq_error_iff, firstFault_cons_iff, ih, readBlock_eq_error_iff hblock,
      exists_readBlock_iff_soundBlock hblock]
    simp only [List.length_nil, Nat.zero_add, List.length_cons, hshift]

/-! ## letters -/

theorem jump?_ofChars_eq_some_iff {write shift jump c : Char} :
    (Spec.ofChars write shift jump).jump? = some c ↔
      jump = c ∧ [write, shift, jump] ≠ placeholder := by
  unfold Spec.ofChars
  split
  · next hplace => exact iff_of_false nofun fun h => h.2 hplace
  · next hplace =>
    rw [Spec.jump?, Option.some.injEq]
    exact (and_iff_left hplace).symm

theorem exists_jump?_iff {block : List Char} {ss : List Spec} (h : specs block = .ok ss)
    {c : Char} : (∃ s ∈ ss, s.jump? = some c) ↔ ∃ texts, CutInto block texts ∧
      ∃ write shift, [write, shift, c] ∈ texts ∧ [write, shift, c] ≠ placeholder := by
  obtain ⟨texts, rfl, hcuts⟩ := specs_eq_ok_iff.mp h
  have hcut := cutInto_of_cuts hcuts
  constructor
  · rintro ⟨s, hs, hjump⟩
    obtain ⟨_, htext, write, shift, jump, rfl, rfl⟩ := exists_of_mem_right hcuts hs
    obtain ⟨rfl, hplace⟩ := jump?_ofChars_eq_some_iff.mp hjump
    exact ⟨texts, hcut, write, shift, htext, hplace⟩
  · rintro ⟨texts', hcut', write, shift, htext, hplace⟩
    cases hcut.unique hcut'
    obtain ⟨s, hs, write', shift', jump, heq, rfl⟩ := exists_of_mem_left hcuts htext
    cases heq
    exact ⟨_, hs, jump?_ofChars_eq_some_iff.mpr ⟨rfl, hplace⟩⟩

theorem mem_jumps_iff {sss : List (List Spec)} (h : layout text = .ok sss) {c : Char} :
    c ∈ jumps sss ↔ JumpsTo text c := by
  have hblocks := layout_eq_ok_iff.mp h
  rw [jumps, List.mem_filterMap]
  constructor
  · rintro ⟨s, hs, hjump⟩
    obtain ⟨ss, hss, hs⟩ := List.mem_flatten.mp hs
    obtain ⟨block, hblock, hspecs⟩ := exists_of_mem_right hblocks hss
    exact ⟨block, hblock, (exists_jump?_iff hspecs).mp ⟨s, hs, hjump⟩⟩
  · rintro ⟨block, hblock, hcut⟩
    obtain ⟨ss, hss, hspecs⟩ := exists_of_mem_left hblocks hblock
    obtain ⟨s, hs, hjump⟩ := (exists_jump?_iff hspecs).mpr hcut
    exact ⟨s, List.mem_flatten.mpr ⟨ss, hss, hs⟩, hjump⟩

theorem letterState?_eq_succ_iff {c : Char} {i : Nat} :
    letterState? c = some (i + 1) ↔ Names c i := by
  rw [letterState?_eq_some_iff]
  constructor
  · rintro (⟨_, hzero⟩ | ⟨j, hj, heq⟩)
    · cases hzero
    · cases heq
      exact hj
  · exact fun h => .inr ⟨i, h, rfl⟩

theorem lastNamed_le_iff_names {cs : List Char} {n : Nat} :
    lastNamed cs ≤ n ↔ ∀ c ∈ cs, ∀ i, Names c i → i + 1 ≤ n := by
  rw [lastNamed_le_iff]
  refine forall₂_congr fun c _ => ?_
  simp only [← letterState?_eq_succ_iff]
  cases letterState? c with
  | none => exact iff_of_true (Nat.zero_le n) nofun
  | some state =>
    cases state with
    | zero => exact iff_of_true (Nat.zero_le n) nofun
    | succ i => simp

/-- the greatest letter is one of those there are -/
theorem exists_names_lastNamed {cs : List Char} {i : Nat} (h : lastNamed cs = i + 1) :
    ∃ c ∈ cs, Names c i := by
  by_contra hnone
  have hle : lastNamed cs ≤ i := by
    refine lastNamed_le_iff_names.mpr fun c hc j hj => ?_
    have hji := lastNamed_le_iff_names.mp h.le c hc j hj
    have hne : j ≠ i := by
      rintro rfl
      exact hnone ⟨c, hc, hj⟩
    omega
  omega

theorem Names.stateName_eq {c : Char} {i : Nat} (h : Names c i) : stateName (i + 1) = c := by
  obtain ⟨hlt, hletter⟩ := getElem?_take_eq_some_iff.mp h
  rw [getElem?_capitalLetters_stateName hlt, Option.some.injEq] at hletter
  exact hletter

theorem checkOrder_eq_ok_iff_ordered {sss : List (List Spec)} (h : layout text = .ok sss) :
    checkOrder (jumps sss) sss.length = .ok () ↔ Ordered text := by
  rw [checkOrder_eq_ok_iff, lastNamed_le_iff_names, ← (layout_eq_ok_iff.mp h).length_eq]
  simp only [mem_jumps_iff h]
  exact ⟨fun hall letter i hjump => hall letter hjump i,
    fun hall letter hjump i => hall letter i hjump⟩

theorem lastJump_iff {sss : List (List Spec)} (h : layout text = .ok sss) {letter : Char}
    {i : Nat} : LastJump text letter i ↔
      lastNamed (jumps sss) = i + 1 ∧ stateName (i + 1) = letter := by
  constructor
  · rintro ⟨hnames, hjumps, hlast⟩
    refine ⟨Nat.le_antisymm ?_ ?_, hnames.stateName_eq⟩
    · refine lastNamed_le_iff_names.mpr fun other hother j hj => ?_
      exact Nat.succ_le_succ (hlast other j ((mem_jumps_iff h).mp hother) hj)
    · exact lastNamed_le_iff_names.mp (Nat.le_refl _) letter ((mem_jumps_iff h).mpr hjumps) i hnames
  · rintro ⟨hlast, rfl⟩
    obtain ⟨c, hc, hnames⟩ := exists_names_lastNamed hlast
    rw [hnames.stateName_eq]
    refine ⟨hnames, (mem_jumps_iff h).mp hc, fun other j hother hj => ?_⟩
    have hle := lastNamed_le_iff_names.mp hlast.le other ((mem_jumps_iff h).mpr hother) j hj
    omega

theorem checkOrder_eq_error_iff {sss : List (List Spec)} (h : layout text = .ok sss) :
    checkOrder (jumps sss) sss.length = .error e ↔ ∃ letter i, LastJump text letter i ∧
      (text.splitOn '_').length < i + 1 ∧ e = .stateOrder letter (text.splitOn '_').length := by
  rw [(layout_eq_ok_iff.mp h).length_eq, checkOrder]
  constructor
  · intro herror
    split at herror
    · next hlt =>
      cases herror
      obtain ⟨i, hi⟩ := Nat.exists_eq_succ_of_ne_zero (show lastNamed (jumps sss) ≠ 0 by omega)
      rw [hi] at hlt ⊢
      exact ⟨_, i, (lastJump_iff h).mpr ⟨hi, rfl⟩, hlt, rfl⟩
    · cases herror
  · rintro ⟨letter, i, hletter, hlt, rfl⟩
    obtain ⟨hlast, rfl⟩ := (lastJump_iff h).mp hletter
    rw [hlast, if_pos hlt]

/-! ## codes -/

theorem tableOfSpecs_eq_error_iff {sss : List (List Spec)} :
    tableOfSpecs m sss = .error e ↔ checkOrder (jumps sss) sss.length = .error e ∨
      (checkOrder (jumps sss) sss.length = .ok () ∧ readBlocks m startState sss = .error e) := by
  rw [tableOfSpecs, bind_both_eq_error_iff]
  refine or_congr_right (and_congr_left fun _ => ⟨?_, fun h => ⟨(), h⟩⟩)
  rintro ⟨_, h⟩
  exact h

theorem decodeOn_eq_error_iff {code : String} {blank : Symbol} :
    decodeOn code m blank = .error e ↔ parseTable code m = .error e ∨
      ((∃ t, parseTable code m = .ok t) ∧ m ≤ blank.toNat ∧ e = .invalidBlank blank m) := by
  rw [decodeOn, bind_eq_error_iff]
  refine or_congr_right ?_
  have htable : ∀ t, parseTable code m = .ok t → t.symbols = m := fun t ht =>
    (parseTable_eq_ok_iff_denotes.mp ht).2.choose_spec.2.symbols_eq
  constructor
  · rintro ⟨t, ht, h⟩
    unfold Machine.ofTable at h
    split at h
    · cases h
    · next hblank =>
      cases h
      rw [htable t ht] at hblank ⊢
      exact ⟨⟨t, ht⟩, Nat.le_of_not_lt hblank, rfl⟩
  · rintro ⟨⟨t, ht⟩, hblank, rfl⟩
    refine ⟨t, ht, ?_⟩
    rw [Machine.ofTable, dif_neg (by rw [htable t ht]; omega), htable t ht]

theorem firstViolation_of_tableOfSpecs {blank : Symbol} {sss : List (List Spec)}
    (hm : 1 ≤ m ∧ m ≤ 10) (hsss : layout text = .ok sss) (h : tableOfSpecs m sss = .error e) :
    FirstViolation text m blank e := by
  have hfits : Fits text := fits_iff.mpr ⟨sss, hsss⟩
  rcases tableOfSpecs_eq_error_iff.mp h with horder | ⟨horder, hread⟩
  · obtain ⟨letter, i, hlast, hpast, rfl⟩ := (checkOrder_eq_error_iff hsss).mp horder
    exact .stateOrder hm hfits hlast hpast
  · exact .block hm hfits ((checkOrder_eq_ok_iff_ordered hsss).mp horder)
      ((readBlocks_eq_error_iff (layout_eq_ok_iff.mp hsss)).mp hread)

theorem firstViolation_of_parseTrimmed (blank : Symbol) (h : parseTrimmed text m = .error e) :
    FirstViolation text m blank e := by
  rcases parseTrimmed_eq_error_iff.mp h with ⟨hm, rfl⟩ | ⟨hm, ⟨place, hplace, rfl⟩ | ⟨sss, hsss, h⟩⟩
  · exact .alphabetSize hm
  · obtain ⟨position, hbreaks, hmarks⟩ := layout_eq_error_iff.mp hplace
    exact .misfit hm hbreaks hmarks
  · exact firstViolation_of_tableOfSpecs hm hsss h

/-- a code has one first violation at most, and if it has one, it is refused with it -/
theorem decodeOn_of_firstViolation {code : String} {blank : Symbol}
    (h : FirstViolation (Text.trim code.toList) m blank e) :
    decodeOn code m blank = .error e := by
  rw [decodeOn_eq_error_iff, parseTable, parseTrimmed_eq_error_iff]
  cases h with
  | alphabetSize hm => exact .inl (.inl ⟨hm, rfl⟩)
  | misfit hm hbreaks hmarks =>
    exact .inl (.inr ⟨hm, .inl ⟨_, layout_eq_error_iff.mpr ⟨_, hbreaks, hmarks⟩, rfl⟩⟩)
  | stateOrder hm hfits hlast hpast =>
    obtain ⟨sss, hsss⟩ := fits_iff.mp hfits
    refine .inl (.inr ⟨hm, .inr ⟨sss, hsss, tableOfSpecs_eq_error_iff.mpr (.inl ?_)⟩⟩)
    exact (checkOrder_eq_error_iff hsss).mpr ⟨_, _, hlast, hpast, rfl⟩
  | block hm hfits hordered hfault =>
    obtain ⟨sss, hsss⟩ := fits_iff.mp hfits
    refine .inl (.inr ⟨hm, .inr ⟨sss, hsss, tableOfSpecs_eq_error_iff.mpr (.inr ⟨?_, ?_⟩)⟩⟩)
    · exact (checkOrder_eq_ok_iff_ordered hsss).mpr hordered
    · exact (readBlocks_eq_error_iff (layout_eq_ok_iff.mp hsss)).mpr hfault
  | invalidBlank hm hcode hblank =>
    obtain ⟨rows, hrows⟩ := hcode
    exact .inr ⟨⟨_, parseTable_eq_ok_iff.mpr ⟨hm, rows, hrows, rfl⟩⟩, hblank, rfl⟩

theorem breaksAt_of_firstViolation {blank : Symbol} {place : Misfit}
    (h : FirstViolation text m blank (.misfit place)) : (1 ≤ m ∧ m ≤ 10) ∧
      ∃ position, BreaksAt text position place.missing ∧ place.Marks text position := by
  cases h with
  | misfit hm hbreaks hmarks => exact ⟨hm, _, hbreaks, hmarks⟩
  | block _ _ _ hfault =>
    obtain ⟨_, _, _, _, _, hblock⟩ := hfault
    cases hblock with
    | spec _ _ hspecs =>
      obtain ⟨_, _, _, _, _, hspec⟩ := hspecs
      cases hspec

/-- a misfit is found before any character is read -/
theorem parseTable_eq_misfit_iff {code : String} {place : Misfit} :
    parseTable code m = .error (.misfit place) ↔
      (1 ≤ m ∧ m ≤ 10) ∧ layout (Text.trim code.toList) = .error place := by
  rw [parseTable]
  constructor
  · intro h
    obtain ⟨hm, hplace⟩ := breaksAt_of_firstViolation (firstViolation_of_parseTrimmed 0 h)
    exact ⟨hm, layout_eq_error_iff.mpr hplace⟩
  · rintro ⟨hm, h⟩
    exact parseTrimmed_eq_error_iff.mpr (.inr ⟨hm, .inl ⟨place, h, rfl⟩⟩)

theorem not_firstViolation_invalidJump {blank : Symbol} {state : Nat} {letter : Char}
    (hletter : letter ∈ capitalLetters) :
    ¬FirstViolation text m blank (.invalidJump state letter) := by
  intro h
  cases h with
  | block _ _ _ hfault =>
    obtain ⟨_, _, _, _, _, hblock⟩ := hfault
    cases hblock with
    | spec _ _ hspecs =>
      obtain ⟨_, _, _, _, _, hspec⟩ := hspecs
      cases hspec with
      | jump _ _ hjump => exact hjump hletter

/-- **A code is refused exactly with its first violation**, and a jump to a capital letter is never
called invalid. -/
theorem rejected_with_first_violation (code : String) (m : Nat) (blank : Symbol) :
    (∀ e, decodeOn code m blank = .error e ↔
      FirstViolation (Text.trim code.toList) m blank e) ∧
    ∀ state letter, letter ∈ capitalLetters →
      decodeOn code m blank ≠ .error (.invalidJump state letter) := by
  have hiff : ∀ e, decodeOn code m blank = .error e ↔
      FirstViolation (Text.trim code.toList) m blank e := by
    refine fun e => ⟨fun h => ?_, decodeOn_of_firstViolation⟩
    rcases decodeOn_eq_error_iff.mp h with h | ⟨⟨t, ht⟩, hblank, rfl⟩
    · exact firstViolation_of_parseTrimmed blank h
    · obtain ⟨hm, rows, hcode, _⟩ := parseTable_eq_ok_iff.mp ht
      exact .invalidBlank hm ⟨rows, hcode⟩ hblank
  exact ⟨hiff, fun state letter hletter h =>
    not_firstViolation_invalidJump hletter ((hiff _).mp h)⟩

/-- a wrong move, a wrong write, a small letter, a blank out of range and, before all of them, a jump
past the last block -/
theorem rejected_with_first_violation_crowded :
    decodeOn " 1RC0XB_9La---\n" 2 7 = .error (.stateOrder 'C' 2) ∧
      FirstViolation "1RC0XB_9La---".toList 2 7 (.stateOrder 'C' 2) ∧
      'B' ∈ capitalLetters ∧
      decodeOn " 1RC0XB_9La---\n" 2 7 ≠ .error (.invalidJump 1 'B') := by
  have hdecode : decodeOn " 1RC0XB_9La---\n" 2 7 = .error (.stateOrder 'C' 2) := by decide
  have htrim : Text.trim " 1RC0XB_9La---\n".toList = "1RC0XB_9La---".toList := by decide
  have hletter : 'B' ∈ capitalLetters := by decide
  have hviolation := ((rejected_with_first_violation " 1RC0XB_9La---\n" 2 7).1 _).mp hdecode
  rw [htrim] at hviolation
  exact ⟨hdecode, hviolation, hletter,
    (rejected_with_first_violation " 1RC0XB_9La---\n" 2 7).2 1 'B' hletter⟩

end Holdout.Code
