/-!
# Decimal numerals

Numbers are written in base ten without leading zeros.

* `digits`, `text`   a number as characters, as a string;
* `value`            the number of a text of digits;
* `unsigned?`        reads at least one digit, leading zeros or not, below `wordBound`;
* `count?`           the same after an optional plus sign.
-/

namespace Holdout.Decimal

/-- two to the power of sixty-four, the first number that does not fit in 64 bits -/
def wordBound : Nat := 18446744073709551616

def digits (n : Nat) : List Char := Nat.toDigits 10 n

def text (n : Nat) : String := String.ofList (digits n)

def value (cs : List Char) : Nat := Nat.ofDigitChars 10 cs 0

theorem value_digits (n : Nat) : value (digits n) = n := Nat.ofDigitChars_ten_toDigits

theorem digits_ne_nil (n : Nat) : digits n ≠ [] := Nat.toDigits_ne_nil

theorem isDigit_of_mem_digits {n : Nat} {c : Char} (h : c ∈ digits n) : c.isDigit = true :=
  Nat.isDigit_of_mem_toDigits (by decide) (by decide) h

theorem digits_of_lt_ten {n : Nat} (h : n < 10) : digits n = [n.digitChar] :=
  Nat.toDigits_of_lt_base h

/-- a number below the bound -/
def bounded? (n : Nat) : Option Nat := if n < wordBound then some n else none

theorem bounded?_eq_some_iff {n m : Nat} : bounded? n = some m ↔ n = m ∧ n < wordBound := by
  unfold bounded?
  split
  · simp_all
  · simp only [reduceCtorEq, false_iff, not_and]
    omega

/-- reads digits, with leading zeros or not -/
def unsigned? (cs : List Char) : Option Nat :=
  if cs.isEmpty || !cs.all Char.isDigit then none else bounded? (value cs)

theorem unsigned?_eq_some_iff {cs : List Char} {n : Nat} : unsigned? cs = some n ↔
    (cs ≠ [] ∧ ∀ c ∈ cs, c.isDigit = true) ∧ value cs = n ∧ value cs < wordBound := by
  rw [← bounded?_eq_some_iff, ← List.all_eq_true]
  unfold unsigned?
  cases cs with
  | nil => simp
  | cons c cs => cases h : (c :: cs).all Char.isDigit <;> simp

theorem unsigned?_digits {n : Nat} (h : n < wordBound) : unsigned? (digits n) = some n := by
  refine unsigned?_eq_some_iff.mpr ⟨⟨digits_ne_nil n, fun _ => isDigit_of_mem_digits⟩, ?_⟩
  rw [value_digits]
  exact ⟨rfl, h⟩

/-- reads digits after an optional plus sign -/
def count? : List Char → Option Nat
  | '+' :: cs => unsigned? cs
  | cs => unsigned? cs

/-- digits need no sign -/
theorem count?_of_forall {cs : List Char} (h : ∀ c ∈ cs, c.isDigit = true) :
    count? cs = unsigned? cs := by
  unfold count?
  split
  · next ds =>
    have hplus : '+'.isDigit = true := h '+' List.mem_cons_self
    cases hplus
  · rfl

end Holdout.Decimal
