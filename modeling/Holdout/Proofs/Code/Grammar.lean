import Holdout.Code.Reader
import Holdout.Proofs.Pointwise
import Mathlib.Tactic.IntervalCases

/-!
# The language of machine codes

A code is written in a language of its own, said here without reading anything: which texts are
specs, blocks and codes, and what they mean.

* `SpecText`    three characters and the transition that they mean, in a code of `n` blocks over
                an alphabet of `m` symbols;
* `BlockText`   `m` specs without anything in between, and the row that they mean;
* `CodeText`    one block or more, joined by single underscores, and their rows.

The letters are those of the first twenty-five states, whatever the number of blocks, so a state
past the twenty-fifth has a block but no letter.
-/

namespace Holdout.Code

def decimalDigits : List Char := ['0', '1', '2', '3', '4', '5', '6', '7', '8', '9']

def capitalLetters : List Char :=
  ['A', 'B', 'C', 'D', 'E', 'F', 'G', 'H', 'I', 'J', 'K', 'L', 'M', 'N', 'O', 'P', 'Q', 'R', 'S',
    'T', 'U', 'V', 'W', 'X', 'Y', 'Z']

/-- the placeholder, or a digit of the alphabet, `L` or `R`, and `Z` or the letter of a block -/
inductive SpecText (m n : Nat) : List Char → Transition → Prop
  | placeholder : SpecText m n ['-', '-', '-'] ⟨0, .right, 0⟩
  | halt {digit : Char} {value : Nat} (d : Direction)
    (hdigit : (decimalDigits.take m)[value]? = some digit) :
    SpecText m n [digit, d.letter, 'Z'] ⟨UInt8.ofNat value, d, 0⟩
  | jump {digit letter : Char} {value i : Nat} (d : Direction)
    (hdigit : (decimalDigits.take m)[value]? = some digit)
    (hletter : (capitalLetters.take (min n 25))[i]? = some letter) :
    SpecText m n [digit, d.letter, letter] ⟨UInt8.ofNat value, d, i + 1⟩

/-- exactly `m` specs one after the other -/
def BlockText (m n : Nat) (text : List Char) (row : List Transition) : Prop :=
  ∃ specs : List (List Char), text = specs.flatten ∧ specs.length = m ∧
    List.Forall₂ (SpecText m n) specs row

/-- one block or more, with a single underscore between two blocks -/
def CodeText (m : Nat) (text : List Char) (rows : List (List Transition)) : Prop :=
  ∃ blocks : List (List Char), blocks ≠ [] ∧ text = ['_'].intercalate blocks ∧
    List.Forall₂ (BlockText m rows.length) blocks rows

/-! ## characters -/

theorem getElem?_take_eq_some_iff {α : Type} {l : List α} {k i : Nat} {a : α} :
    (l.take k)[i]? = some a ↔ i < k ∧ l[i]? = some a := by
  rw [List.getElem?_take]
  split <;> simp [*]

theorem getElem?_decimalDigits {value : Nat} {c : Char} :
    decimalDigits[value]? = some c ↔ value < 10 ∧ c = Char.ofNat ('0'.toNat + value) := by
  constructor
  · intro h
    have hlt : value < 10 := (List.getElem?_eq_some_iff.mp h).1
    refine ⟨hlt, ?_⟩
    interval_cases value <;> (cases h; rfl)
  · rintro ⟨hlt, rfl⟩
    interval_cases value <;> rfl

theorem getElem?_capitalLetters {i : Nat} {c : Char} :
    capitalLetters[i]? = some c ↔ i < 26 ∧ c = Char.ofNat ('A'.toNat + i) := by
  constructor
  · intro h
    have hlt : i < 26 := (List.getElem?_eq_some_iff.mp h).1
    refine ⟨hlt, ?_⟩
    interval_cases i <;> (cases h; rfl)
  · rintro ⟨hlt, rfl⟩
    interval_cases i <;> rfl

/-- what a check of all characters of a list says of one of them -/
theorem plain_of_all {cs : List Char}
    (h : cs.all (fun c => c != '_' && !Text.isBlank c) = true) {c : Char} (hc : c ∈ cs) :
    c ≠ '_' ∧ Text.isBlank c = false := by
  have hboth := List.all_eq_true.mp h c hc
  rw [Bool.and_eq_true, bne_iff_ne, Bool.not_eq_true'] at hboth
  exact hboth

/-- no character of a spec separates blocks or is white space -/
theorem SpecText.plain {m n : Nat} {text : List Char} {t : Transition} (h : SpecText m n text t) :
    ∀ c ∈ text, c ≠ '_' ∧ Text.isBlank c = false := by
  have hmem : ∀ c ∈ text, c ∈ ['-', 'L', 'R', 'Z'] ∨ c ∈ decimalDigits ∨ c ∈ capitalLetters := by
    have hmove : ∀ d : Direction, d.letter ∈ ['-', 'L', 'R', 'Z'] := by
      intro d
      cases d <;> simp [Direction.letter]
    intro c hc
    cases h with
    | placeholder =>
      have hdash : c = '-' := by simpa using hc
      exact Or.inl (hdash ▸ List.mem_cons_self)
    | halt d hdigit =>
      simp only [List.mem_cons, List.not_mem_nil, or_false] at hc
      rcases hc with rfl | rfl | rfl
      · exact Or.inr (Or.inl (List.mem_of_getElem? (getElem?_take_eq_some_iff.mp hdigit).2))
      · exact Or.inl (hmove d)
      · exact Or.inl (by simp)
    | jump d hdigit hletter =>
      simp only [List.mem_cons, List.not_mem_nil, or_false] at hc
      rcases hc with rfl | rfl | rfl
      · exact Or.inr (Or.inl (List.mem_of_getElem? (getElem?_take_eq_some_iff.mp hdigit).2))
      · exact Or.inl (hmove d)
      · exact Or.inr (Or.inr (List.mem_of_getElem? (getElem?_take_eq_some_iff.mp hletter).2))
  intro c hc
  rcases hmem c hc with hc | hc | hc
  · exact plain_of_all rfl hc
  · exact plain_of_all rfl hc
  · exact plain_of_all rfl hc

theorem SpecText.length_eq {m n : Nat} {text : List Char} {t : Transition}
    (h : SpecText m n text t) : text.length = 3 := by
  cases h <;> rfl

theorem length_of_mem_specTexts {m n : Nat} {specs : List (List Char)} {row : List Transition}
    (h : List.Forall₂ (SpecText m n) specs row) : ∀ spec ∈ specs, spec.length = 3 := by
  intro spec hspec
  obtain ⟨t, _, ht⟩ := exists_of_mem_left h hspec
  exact ht.length_eq

theorem BlockText.plain {m n : Nat} {text : List Char} {row : List Transition}
    (h : BlockText m n text row) : ∀ c ∈ text, c ≠ '_' ∧ Text.isBlank c = false := by
  obtain ⟨specs, rfl, _, hspecs⟩ := h
  intro c hc
  obtain ⟨spec, hspec, hc⟩ := List.mem_flatten.mp hc
  obtain ⟨t, _, ht⟩ := exists_of_mem_left hspecs hspec
  exact ht.plain c hc

theorem BlockText.length_row {m n : Nat} {text : List Char} {row : List Transition}
    (h : BlockText m n text row) : row.length = m := by
  obtain ⟨specs, _, hlength, hspecs⟩ := h
  rw [← hspecs.length_eq, hlength]

/-! ## meanings -/

theorem toNat_lt_of_getElem?_take {m value : Nat} {digit : Char}
    (h : (decimalDigits.take m)[value]? = some digit) : (UInt8.ofNat value).toNat < m := by
  obtain ⟨hlt, hdigit⟩ := getElem?_take_eq_some_iff.mp h
  have hten := (getElem?_decimalDigits.mp hdigit).1
  rw [UInt8.toNat_ofNat_of_lt' (show value < 256 by omega)]
  exact hlt

/-- a spec writes a symbol of the alphabet and goes to a state of the code -/
theorem SpecText.transition_lt {m n : Nat} (hm : 1 ≤ m) {text : List Char} {t : Transition}
    (h : SpecText m n text t) : t.write.toNat < m ∧ t.next ≤ n := by
  cases h with
  | placeholder => exact ⟨hm, Nat.zero_le n⟩
  | halt d hdigit => exact ⟨toNat_lt_of_getElem?_take hdigit, Nat.zero_le n⟩
  | jump d hdigit hletter =>
    have hi := (getElem?_take_eq_some_iff.mp hletter).1
    refine ⟨toNat_lt_of_getElem?_take hdigit, ?_⟩
    show _ + 1 ≤ n
    omega

theorem BlockText.transition_lt {m n : Nat} (hm : 1 ≤ m) {text : List Char}
    {row : List Transition} (h : BlockText m n text row) :
    ∀ t ∈ row, t.write.toNat < m ∧ t.next ≤ n := by
  obtain ⟨specs, _, _, hspecs⟩ := h
  intro t ht
  obtain ⟨spec, _, hspec⟩ := exists_of_mem_right hspecs ht
  exact hspec.transition_lt hm

end Holdout.Code
