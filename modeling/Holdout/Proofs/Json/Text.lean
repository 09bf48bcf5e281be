import Holdout.Json.Reader
import Mathlib.Data.List.TakeDrop

/-!
# Reading what was written

The reader of JSON texts takes a written value off the front of a text and leaves the rest, provided
that the rest cannot make a number longer.  It needs two units of fuel for each character.

* `textBody_escaped`   one character of a string, `textBody_flatMap_escaped` a whole string;
* `Follows`            what comes after a value: a comma, a closing bracket or nothing;
* `integer?_digits`    digits come without a leading zero, so all of them are read;
* `Value.Reads`        a written value is read off the front of a text;
* `items_chars`, `members_chars`   the items of a list, the fields of a record, if each is read;
* `Value.reads`        so every value is, and `read?_write` reads it from its own text.
-/

namespace Holdout.Json

/-! ## strings -/

theorem hexUnit?_control {n : Nat} (h : n < 0x20) :
    hexUnit? '0' '0' (hexDigit (n / 16)) (hexDigit (n % 16)) = some n := by
  have hall : ∀ n < 0x20,
      hexUnit? '0' '0' (hexDigit (n / 16)) (hexDigit (n % 16)) = some n := by decide
  exact hall n h

theorem pushUnit_control (t : PartialText) {c : Char} (h : c.toNat < 0x20) :
    t.pushUnit c.toNat = t.push c := by
  have hhigh : isHighUnit c.toNat = false := by
    simp only [isHighUnit, Bool.and_eq_false_iff, decide_eq_false_iff_not]
    omega
  have hlow : isLowUnit c.toNat = false := by
    simp only [isLowUnit, Bool.and_eq_false_iff, decide_eq_false_iff_not]
    omega
  simp only [PartialText.pushUnit, hhigh, hlow, Bool.false_eq_true, ↓reduceIte, Char.ofNat_toNat]

theorem textBody_quote (t : PartialText) (rest : List Char) :
    textBody t ('"' :: rest) = some (t.finish, rest) := by
  rw [textBody]

theorem textBody_unit (t : PartialText) {a b c d : Char} {unit : Nat}
    (h : hexUnit? a b c d = some unit) (rest : List Char) :
    textBody t ('\\' :: 'u' :: a :: b :: c :: d :: rest) = textBody (t.pushUnit unit) rest := by
  rw [textBody, h]

theorem textBody_simple (t : PartialText) {c e : Char} (h : simpleEscape? c = some e)
    (rest : List Char) : textBody t ('\\' :: c :: rest) = textBody (t.push e) rest := by
  have hu : c ≠ 'u' := by
    intro hu
    rw [hu] at h
    cases h
  rw [textBody, h]
  intro _ _ _ _ _ hc
  exact absurd hc hu

theorem textBody_plain (t : PartialText) {c : Char} (hquote : c ≠ '"') (hslash : c ≠ '\\')
    (hcontrol : ¬ c.toNat < 0x20) (rest : List Char) :
    textBody t (c :: rest) = textBody (t.push c) rest := by
  rw [textBody]
  · simp [hslash, hcontrol]
  all_goals simp_all

/-- one escaped character puts that character at the end of the string -/
theorem textBody_escaped (t : PartialText) (c : Char) (rest : List Char) :
    textBody t (escaped c ++ rest) = textBody (t.push c) rest := by
  unfold escaped
  split_ifs with hquote hslash _ _ _ _ _ hcontrol
  -- a letter after a backslash, digits after a backslash, the character itself
  any_goals (subst_vars; exact textBody_simple t rfl rest)
  · rw [← pushUnit_control t hcontrol]
    exact textBody_unit t (hexUnit?_control hcontrol) rest
  · exact textBody_plain t hquote hslash hcontrol rest

theorem textBody_flatMap_escaped (t : PartialText) (cs rest : List Char) :
    textBody t (cs.flatMap escaped ++ '"' :: rest) =
      some ((cs.foldl PartialText.push t).finish, rest) := by
  induction cs generalizing t with
  | nil => exact textBody_quote t rest
  | cons c cs ih => rw [List.flatMap_cons, List.append_assoc, textBody_escaped, ih, List.foldl_cons]

theorem foldl_push (before cs : List Char) :
    cs.foldl PartialText.push ⟨before, none, true⟩ = ⟨cs.reverse ++ before, none, true⟩ := by
  induction cs generalizing before with
  | nil => rfl
  | cons c cs ih =>
    rw [List.foldl_cons, List.reverse_cons, List.append_assoc]
    exact ih (c :: before)

/-- a written string is read up to its closing quote -/
theorem textBody_quoted (cs rest : List Char) :
    textBody .empty (cs.flatMap escaped ++ '"' :: rest) = some (some cs, rest) := by
  have hfold : cs.foldl PartialText.push .empty = ⟨cs.reverse ++ [], none, true⟩ :=
    foldl_push [] cs
  have hfinish : (cs.foldl PartialText.push .empty).finish = some cs := by
    rw [hfold, List.append_nil]
    exact congrArg some cs.reverse_reverse
  rw [textBody_flatMap_escaped, hfinish]

theorem quoted_append (cs rest : List Char) :
    quoted cs ++ rest = '"' :: (cs.flatMap escaped ++ '"' :: rest) := by
  rw [quoted, List.cons_append, List.append_assoc]
  rfl

/-! ## numbers -/

/-- the text after a value inside a text: nothing, a comma or a closing bracket -/
def Follows : List Char → Prop
  | [] => True
  | c :: _ => c = ',' ∨ c = ']' ∨ c = '\x7d'

theorem Follows.not_digit {rest : List Char} (h : Follows rest) :
    rest.takeWhile Char.isDigit = [] ∧ rest.dropWhile Char.isDigit = rest := by
  cases rest with
  | nil => exact ⟨rfl, rfl⟩
  | cons c rest => rcases h with rfl | rfl | rfl <;> exact ⟨rfl, rfl⟩

/-- the digits of a number above zero do not start with a zero -/
theorem exists_digits_eq_cons {n : Nat} (h : n ≠ 0) :
    ∃ c ds, Decimal.digits n = c :: ds ∧ c ≠ '0' := by
  induction n using Nat.strongRecOn with
  | ind n ih =>
    rcases Nat.lt_or_ge n 10 with hten | hten
    · have hall : ∀ n < 10, n ≠ 0 → n.digitChar ≠ '0' := by decide
      exact ⟨n.digitChar, [], Decimal.digits_of_lt_ten hten, hall n hten h⟩
    · obtain ⟨c, ds, hdigits, hzero⟩ := ih (n / 10) (by omega) (by omega)
      have hmore : Decimal.digits n = Decimal.digits (n / 10) ++ [(n % 10).digitChar] :=
        Nat.toDigits_of_base_le (by decide) hten
      rw [hdigits] at hmore
      exact ⟨c, ds ++ [(n % 10).digitChar], hmore, hzero⟩

theorem span_digits (n : Nat) {rest : List Char} (h : Follows rest) :
    (Decimal.digits n ++ rest).span Char.isDigit = (Decimal.digits n, rest) := by
  have hdigits : ∀ c ∈ Decimal.digits n, c.isDigit = true := fun _ => Decimal.isDigit_of_mem_digits
  rw [List.span_eq_takeWhile_dropWhile, List.takeWhile_append_of_pos hdigits,
    List.dropWhile_append_of_pos hdigits, h.not_digit.1, h.not_digit.2, List.append_nil]

theorem integer?_digits (n : Nat) {rest : List Char} (h : Follows rest) :
    integer? (Decimal.digits n ++ rest) = some (Decimal.digits n, rest) := by
  rw [integer?, span_digits n h]
  rcases eq_or_ne n 0 with rfl | hn
  · rfl
  · obtain ⟨c, ds, hdigits, hzero⟩ := exists_digits_eq_cons hn
    rw [hdigits]
    split
    · simp_all
    · simp_all
    · simp_all

theorem skipFraction?_follows {rest : List Char} (h : Follows rest) :
    skipFraction? rest = some (false, rest) := by
  cases rest with
  | nil => rfl
  | cons c rest => rcases h with rfl | rfl | rfl <;> rfl

theorem skipExponent?_follows {rest : List Char} (h : Follows rest) :
    skipExponent? rest = some (false, rest) := by
  cases rest with
  | nil => rfl
  | cons c rest => rcases h with rfl | rfl | rfl <;> rfl

theorem unsignedNumber?_digits (n : Nat) {rest : List Char} (h : Follows rest) :
    unsignedNumber? (Decimal.digits n ++ rest) = some (.number n, rest) := by
  simp [unsignedNumber?, integer?_digits n h, skipFraction?_follows h, skipExponent?_follows h,
    Decimal.value_digits]

/-! ## scalars -/

theorem ne_of_isDigit {c d : Char} (hc : c.isDigit = true) (hd : d.isDigit = false) : c ≠ d := by
  intro h
  rw [h, hd] at hc
  cases hc

theorem scalar?_eq_number? {c : Char} (hnull : c ≠ 'n') (htrue : c ≠ 't') (hfalse : c ≠ 'f')
    (hquote : c ≠ '"') (cs : List Char) : scalar? (c :: cs) = number? (c :: cs) := by
  rw [scalar?]
  all_goals simp_all

theorem number?_eq_unsignedNumber? {c : Char} (h : c ≠ '-') (cs : List Char) :
    number? (c :: cs) = unsignedNumber? (c :: cs) := by
  rw [number?]
  simp_all

theorem scalar?_digits (n : Nat) {rest : List Char} (h : Follows rest) :
    scalar? (Decimal.digits n ++ rest) = some (.number n, rest) := by
  have hread := unsignedNumber?_digits n h
  obtain ⟨c, ds, heq⟩ := List.exists_cons_of_ne_nil (Decimal.digits_ne_nil n)
  have hc : c.isDigit = true := Decimal.isDigit_of_mem_digits (heq ▸ List.mem_cons_self)
  rw [heq, List.cons_append] at hread ⊢
  rw [scalar?_eq_number? (ne_of_isDigit hc rfl) (ne_of_isDigit hc rfl) (ne_of_isDigit hc rfl)
    (ne_of_isDigit hc rfl), number?_eq_unsignedNumber? (ne_of_isDigit hc rfl), hread]

theorem scalar?_minus_zero {rest : List Char} (h : Follows rest) :
    scalar? ('-' :: '0' :: rest) = some (.otherNumber, rest) := by
  have hread : unsignedNumber? ('0' :: rest) = some (.number 0, rest) := unsignedNumber?_digits 0 h
  rw [scalar?_eq_number? (by decide) (by decide) (by decide) (by decide), number?, hread]
  rfl

theorem scalar?_quoted (s : String) (rest : List Char) :
    scalar? (quoted s.toList ++ rest) = some (.text s, rest) := by
  rw [quoted_append, scalar?, textBody_quoted]
  simp

/-! ## the front of a value -/

/-- a character that a value can start with: it is not blank, and it closes no bracket -/
def Opens (c : Char) : Prop := isBlank c = false ∧ c ≠ ']' ∧ c ≠ '\x7d'

instance (c : Char) : Decidable (Opens c) :=
  inferInstanceAs (Decidable (isBlank c = false ∧ c ≠ ']' ∧ c ≠ '\x7d'))

theorem opens_of_isDigit {c : Char} (h : c.isDigit = true) : Opens c := by
  refine ⟨?_, ne_of_isDigit h rfl, ne_of_isDigit h rfl⟩
  simp only [isBlank, Bool.or_eq_false_iff, beq_eq_false_iff_ne]
  exact ⟨⟨⟨ne_of_isDigit h rfl, ne_of_isDigit h rfl⟩, ne_of_isDigit h rfl⟩, ne_of_isDigit h rfl⟩

theorem Value.exists_chars_eq_cons (v : Value) : ∃ c cs, v.chars = c :: cs ∧ Opens c := by
  cases v with
  | null => exact ⟨_, _, rfl, by decide⟩
  | bool b => cases b <;> exact ⟨_, _, rfl, by decide⟩
  | number n =>
    obtain ⟨c, ds, heq⟩ := List.exists_cons_of_ne_nil (Decimal.digits_ne_nil n)
    exact ⟨c, ds, heq, opens_of_isDigit (Decimal.isDigit_of_mem_digits (heq ▸ List.mem_cons_self))⟩
  | otherNumber => exact ⟨_, _, rfl, by decide⟩
  | text s => exact ⟨_, _, rfl, by decide⟩
  | brokenText => exact ⟨_, _, rfl, by decide⟩
  | list vs => cases vs <;> exact ⟨_, _, rfl, by decide⟩
  | record fields => cases fields <;> exact ⟨_, _, rfl, by decide⟩

theorem skipBlanks_cons {c : Char} (h : isBlank c = false) (cs : List Char) :
    skipBlanks (c :: cs) = c :: cs := by
  simp [skipBlanks, h]

theorem value_scalar {c : Char} (hblank : isBlank c = false) (hlist : c ≠ '[')
    (hrecord : c ≠ '\x7b') (fuel : Nat) (cs : List Char) :
    value (fuel + 1) (c :: cs) = scalar? (c :: cs) := by
  rw [value, skipBlanks_cons hblank]
  split
  · simp_all
  · simp_all
  · rfl

/-! ## values -/

/-- a written value is read off the front of a text, with two units of fuel for each character -/
def Value.Reads (v : Value) : Prop :=
  ∀ (fuel : Nat) (rest : List Char), 2 * v.chars.length ≤ fuel → Follows rest →
    value fuel (v.chars ++ rest) = some (v, rest)

theorem Value.length_chars_pos (v : Value) : 0 < v.chars.length := by
  obtain ⟨c, cs, h, _⟩ := v.exists_chars_eq_cons
  rw [h]
  exact Nat.succ_pos _

/-- no value is read without fuel -/
theorem Value.reads_of_succ {v : Value}
    (h : ∀ (fuel : Nat) (rest : List Char), 2 * v.chars.length ≤ fuel + 1 → Follows rest →
      value (fuel + 1) (v.chars ++ rest) = some (v, rest)) : v.Reads := by
  intro fuel rest hfuel hrest
  cases fuel with
  | zero =>
    have hpos := v.length_chars_pos
    omega
  | succ fuel => exact h fuel rest hfuel hrest

theorem Value.reads_of_scalar {v : Value} {c : Char} {cs : List Char} (hchars : v.chars = c :: cs)
    (hblank : isBlank c = false) (hlist : c ≠ '[') (hrecord : c ≠ '\x7b')
    (h : ∀ {rest}, Follows rest → scalar? (v.chars ++ rest) = some (v, rest)) : v.Reads := by
  apply reads_of_succ
  intro fuel rest _ hrest
  rw [← h hrest, hchars]
  exact value_scalar hblank hlist hrecord fuel (cs ++ rest)

/-! ## lists -/

theorem value_list {c : Char} (hblank : isBlank c = false) (hclose : c ≠ ']') (fuel : Nat)
    (cs : List Char) : value (fuel + 1) ('[' :: c :: cs) = items fuel [] (c :: cs) := by
  rw [value, skipBlanks_cons (by decide)]
  simp only [skipBlanks_cons hblank]
  split
  · simp_all
  · rfl

theorem items_last {fuel : Nat} {cs rest : List Char} {v : Value}
    (h : value fuel cs = some (v, ']' :: rest)) (acc : List Value) :
    items (fuel + 1) acc cs = some (.list (v :: acc).reverse, rest) := by
  simp [items, h, skipBlanks_cons, isBlank]

theorem items_more {fuel : Nat} {cs rest : List Char} {v : Value}
    (h : value fuel cs = some (v, ',' :: rest)) (acc : List Value) :
    items (fuel + 1) acc cs = items fuel (v :: acc) rest := by
  simp [items, h, skipBlanks_cons, isBlank]

theorem items_chars {v : Value} {vs : List Value} (hv : v.Reads) (hvs : ∀ w ∈ vs, w.Reads)
    (fuel : Nat) (hfuel : 2 * (v.chars.length + (Value.itemChars vs).length) ≤ fuel)
    (acc : List Value) (rest : List Char) :
    items fuel acc (v.chars ++ (Value.itemChars vs ++ rest)) =
      some (.list (acc.reverse ++ v :: vs), rest) := by
  induction vs generalizing v fuel acc with
  | nil =>
    rw [Value.itemChars, List.length_singleton] at hfuel
    obtain ⟨fuel, rfl⟩ : ∃ f, fuel = f + 1 := Nat.exists_eq_succ_of_ne_zero (by omega)
    have hread := hv fuel (']' :: rest) (by omega) (.inr (.inl rfl))
    rw [Value.itemChars, List.singleton_append, items_last hread, List.reverse_cons]
  | cons w vs ih =>
    rw [Value.itemChars, List.length_cons, List.length_append] at hfuel
    obtain ⟨fuel, rfl⟩ : ∃ f, fuel = f + 1 := Nat.exists_eq_succ_of_ne_zero (by omega)
    have hread := hv fuel (',' :: (w.chars ++ (Value.itemChars vs ++ rest))) (by omega) (.inl rfl)
    have hlater := ih (hvs w List.mem_cons_self) (fun u hu => hvs u (List.mem_cons_of_mem w hu))
      fuel (by omega) (v :: acc)
    rw [Value.itemChars, List.cons_append, List.append_assoc, items_more hread, hlater,
      List.reverse_cons, List.append_assoc]
    rfl

theorem Value.reads_list {vs : List Value} (h : ∀ v ∈ vs, v.Reads) : (list vs).Reads := by
  apply reads_of_succ
  intro fuel rest hfuel _
  cases vs with
  | nil => rfl
  | cons v vs =>
    rw [chars, List.length_cons, List.length_append] at hfuel
    have hitems := items_chars (h v List.mem_cons_self)
      (fun u hu => h u (List.mem_cons_of_mem v hu)) fuel (by omega) [] rest
    obtain ⟨c, cs, hc, hblank, hclose, _⟩ := v.exists_chars_eq_cons
    rw [hc] at hitems
    rw [chars, hc, List.cons_append, List.append_assoc]
    exact (value_list hblank hclose fuel _).trans hitems

/-! ## records -/

theorem key?_quoted (key rest : List Char) :
    key? (quoted key ++ ':' :: rest) = some (some key, rest) := by
  rw [quoted_append, key?, skipBlanks_cons (by decide)]
  simp [textBody_quoted, skipBlanks_cons, isBlank]

theorem value_record (fuel : Nat) (key rest : List Char) :
    value (fuel + 1) ('\x7b' :: (quoted key ++ rest)) =
      members fuel true [] (quoted key ++ rest) := by
  rw [value, skipBlanks_cons (by decide)]
  rfl

theorem members_last {fuel : Nat} {cs afterKey rest : List Char} {key : String} {v : Value}
    (hkey : key? cs = some (some key.toList, afterKey))
    (h : value fuel afterKey = some (v, '\x7d' :: rest)) (acc : List (String × Value)) :
    members (fuel + 1) true acc cs = some (.record ((key, v) :: acc).reverse, rest) := by
  simp [members, hkey, h, skipBlanks_cons, isBlank, recordOf]

theorem members_more {fuel : Nat} {cs afterKey rest : List Char} {key : String} {v : Value}
    (hkey : key? cs = some (some key.toList, afterKey))
    (h : value fuel afterKey = some (v, ',' :: rest)) (acc : List (String × Value)) :
    members (fuel + 1) true acc cs = members fuel true ((key, v) :: acc) rest := by
  simp [members, hkey, h, skipBlanks_cons, isBlank]

theorem members_chars (key : String) {v : Value} {fields : List (String × Value)} (hv : v.Reads)
    (hfields : ∀ field ∈ fields, field.2.Reads) (fuel : Nat)
    (hfuel : 2 * (v.chars.length + (Value.fieldChars fields).length) ≤ fuel)
    (acc : List (String × Value)) (rest : List Char) :
    members fuel true acc
        (quoted key.toList ++ ':' :: (v.chars ++ (Value.fieldChars fields ++ rest))) =
      some (.record (acc.reverse ++ (key, v) :: fields), rest) := by
  induction fields generalizing key v fuel acc with
  | nil =>
    rw [Value.fieldChars, List.length_singleton] at hfuel
    obtain ⟨fuel, rfl⟩ : ∃ f, fuel = f + 1 := Nat.exists_eq_succ_of_ne_zero (by omega)
    have hread := hv fuel ('\x7d' :: rest) (by omega) (.inr (.inr rfl))
    rw [Value.fieldChars, List.singleton_append, members_last (key?_quoted _ _) hread,
      List.reverse_cons]
  | cons field fields ih =>
    obtain ⟨later, w⟩ := field
    simp only [Value.fieldChars, List.length_cons, List.length_append] at hfuel
    obtain ⟨fuel, rfl⟩ : ∃ f, fuel = f + 1 := Nat.exists_eq_succ_of_ne_zero (by omega)
    have hread := hv fuel (',' :: (quoted later.toList ++
      ':' :: (w.chars ++ (Value.fieldChars fields ++ rest)))) (by omega) (.inl rfl)
    have hlater := ih later (v := w) (hfields (later, w) List.mem_cons_self)
      (fun f hf => hfields f (List.mem_cons_of_mem _ hf)) fuel (by omega) ((key, v) :: acc)
    simp only [Value.fieldChars, List.cons_append, List.append_assoc]
    rw [members_more (key?_quoted _ _) hread, hlater, List.reverse_cons, List.append_assoc]
    rfl

theorem Value.reads_record {fields : List (String × Value)} (h : ∀ field ∈ fields, field.2.Reads) :
    (record fields).Reads := by
  apply reads_of_succ
  intro fuel rest hfuel _
  cases fields with
  | nil => rfl
  | cons field fields =>
    obtain ⟨key, v⟩ := field
    simp only [chars, List.length_cons, List.length_append] at hfuel
    have hmembers := members_chars key (v := v) (h (key, v) List.mem_cons_self)
      (fun f hf => h f (List.mem_cons_of_mem _ hf)) fuel (by omega) [] rest
    simp only [chars, List.cons_append, List.append_assoc]
    exact (value_record fuel _ _).trans hmembers

/-! ## every value -/

theorem Value.reads (v : Value) : v.Reads := by
  induction v using members_induction with
  | null => exact reads_of_scalar rfl (by decide) (by decide) (by decide) fun _ => rfl
  | bool b =>
    cases b <;> exact reads_of_scalar rfl (by decide) (by decide) (by decide) fun _ => rfl
  | number n =>
    obtain ⟨c, ds, heq⟩ := List.exists_cons_of_ne_nil (Decimal.digits_ne_nil n)
    have hc : c.isDigit = true := Decimal.isDigit_of_mem_digits (heq ▸ List.mem_cons_self)
    exact reads_of_scalar heq (opens_of_isDigit hc).1 (ne_of_isDigit hc rfl) (ne_of_isDigit hc rfl)
      (scalar?_digits n)
  | otherNumber =>
    exact reads_of_scalar rfl (by decide) (by decide) (by decide) scalar?_minus_zero
  | text s =>
    exact reads_of_scalar rfl (by decide) (by decide) (by decide) fun _ => scalar?_quoted s _
  | brokenText => exact reads_of_scalar rfl (by decide) (by decide) (by decide) fun _ => rfl
  | list vs ih => exact reads_list ih
  | record fields ih => exact reads_record ih

/-- a value is read from its own text -/
theorem read?_write (v : Value) : read? v.write = some v := by
  have hread := v.reads (fuelFor v.chars) [] (by rw [fuelFor]; omega) trivial
  rw [List.append_nil] at hread
  rw [read?, Value.write, String.toList_ofList, readChars?, hread]
  rfl

end Holdout.Json
