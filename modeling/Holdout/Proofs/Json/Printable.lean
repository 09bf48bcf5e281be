import Holdout.Json.Value
import Mathlib.Tactic.SplitIfs

/-!
# Written values hold no control characters

Those of strings are escaped, and nothing stands between the parts of a value.  So a written value
stays on one line.

* `Printable`              a text without control characters;
* `printable_escaped`      what is written for a character is such a text, whatever it is;
* `Value.printable`        and so is the text of every value;
* `Value.feed_not_mem_write`   in particular no line feed is in it.
-/

namespace Holdout.Json

/-! ## characters -/

/-- no character of the text is a control character of ASCII below the space -/
def Printable (cs : List Char) : Prop := ∀ c ∈ cs, 0x20 ≤ c.toNat

instance (cs : List Char) : Decidable (Printable cs) :=
  List.decidableBAll (fun c : Char => 0x20 ≤ c.toNat) cs

theorem printable_cons_iff {c : Char} {cs : List Char} :
    Printable (c :: cs) ↔ 0x20 ≤ c.toNat ∧ Printable cs :=
  List.forall_mem_cons

theorem printable_append_iff {as bs : List Char} :
    Printable (as ++ bs) ↔ Printable as ∧ Printable bs :=
  List.forall_mem_append

theorem printable_hexDigit {n : Nat} (h : n < 16) : Printable [hexDigit n] := by
  have hall : ∀ n < 16, Printable [hexDigit n] := by decide
  exact hall n h

theorem printable_escaped (c : Char) : Printable (escaped c) := by
  unfold escaped
  split_ifs with _ _ _ _ _ _ _ hcontrol
  -- two characters for each of the escapes that have a name
  any_goals decide
  · have hhigh := printable_hexDigit (n := c.toNat / 16) (by omega)
    have hlow := printable_hexDigit (n := c.toNat % 16) (by omega)
    have hstart : Printable ['\\', 'u', '0', '0'] := by decide
    exact printable_append_iff.mpr ⟨hstart, printable_append_iff.mpr ⟨hhigh, hlow⟩⟩
  · exact List.forall_mem_singleton.mpr (Nat.le_of_not_lt hcontrol)

theorem printable_quoted (cs : List Char) : Printable (quoted cs) := by
  rw [quoted, printable_cons_iff, printable_append_iff]
  refine ⟨by decide, fun d hd => ?_, by decide⟩
  obtain ⟨c, _, hc⟩ := List.mem_flatMap.mp hd
  exact printable_escaped c d hc

theorem printable_digits (n : Nat) : Printable (Decimal.digits n) := by
  intro c hc
  have hdigit := Decimal.isDigit_of_mem_digits hc
  rw [Char.isDigit, Bool.and_eq_true, decide_eq_true_eq] at hdigit
  exact Nat.le_trans (by decide) hdigit.1

/-! ## values -/

namespace Value

theorem printable_itemChars {vs : List Value} (h : ∀ v ∈ vs, Printable v.chars) :
    Printable (itemChars vs) := by
  induction vs with
  | nil => decide
  | cons v vs ih =>
    obtain ⟨hv, hvs⟩ := List.forall_mem_cons.mp h
    rw [itemChars, printable_cons_iff, printable_append_iff]
    exact ⟨by decide, hv, ih hvs⟩

theorem printable_list {vs : List Value} (h : ∀ v ∈ vs, Printable v.chars) :
    Printable (list vs).chars := by
  cases vs with
  | nil => decide
  | cons v vs =>
    obtain ⟨hv, hvs⟩ := List.forall_mem_cons.mp h
    rw [chars, printable_cons_iff, printable_append_iff]
    exact ⟨by decide, hv, printable_itemChars hvs⟩

theorem printable_field (key : String) {v : Value} {cs : List Char} (hv : Printable v.chars)
    (hcs : Printable cs) : Printable (quoted key.toList ++ ':' :: (v.chars ++ cs)) := by
  rw [printable_append_iff, printable_cons_iff, printable_append_iff]
  exact ⟨printable_quoted _, by decide, hv, hcs⟩

theorem printable_fieldChars {fields : List (String × Value)}
    (h : ∀ field ∈ fields, Printable field.2.chars) : Printable (fieldChars fields) := by
  induction fields with
  | nil => decide
  | cons field fields ih =>
    obtain ⟨key, v⟩ := field
    obtain ⟨hv, hfields⟩ := List.forall_mem_cons.mp h
    rw [fieldChars, printable_cons_iff]
    exact ⟨by decide, printable_field key hv (ih hfields)⟩

theorem printable_record {fields : List (String × Value)}
    (h : ∀ field ∈ fields, Printable field.2.chars) : Printable (record fields).chars := by
  cases fields with
  | nil => decide
  | cons field fields =>
    obtain ⟨key, v⟩ := field
    obtain ⟨hv, hfields⟩ := List.forall_mem_cons.mp h
    rw [chars, printable_cons_iff]
    exact ⟨by decide, printable_field key hv (printable_fieldChars hfields)⟩

/-- no value has a control character in its text -/
theorem printable (v : Value) : Printable v.chars := by
  induction v using members_induction with
  | null => decide
  | bool b => cases b <;> decide
  | number n => exact printable_digits n
  | otherNumber => decide
  | text s => exact printable_quoted s.toList
  | brokenText => decide
  | list vs ih => exact printable_list ih
  | record fields ih => exact printable_record ih

theorem feed_not_mem_write (v : Value) : '\n' ∉ v.write.toList := by
  intro h
  rw [write, String.toList_ofList] at h
  exact absurd (v.printable '\n' h) (by decide)

end Value

end Holdout.Json
