import Holdout.Proofs.Code.Accepts

/-!
# Writing a table and reading it again

Any table can be written, but the notation has no spec for some transitions: it has ten digits and
the letters of twenty-five states.  A symbol of more than one digit makes its block too long, and
every state past the last letter is written as a question mark.  So such a text is refused; it is
never read as another table.

* `Sayable`                  the notation has a spec for a transition;
* `specText_writeSpec_iff`   what is written of a transition is a spec exactly if there is one for
                             it, and then it means that transition;
* `blockText_writeBlock_iff`, `codeText_encodeChars_iff`   the same for rows and for tables;
* `Table.HasCode`            the notation has a code for a table;
* `parseTable_encode_iff`    what is read of a written table;
* `parseTable_encode`        a table is read back, or refused if it has no code.
-/

namespace Holdout.Code

variable {m n : Nat}

/-! ## characters -/

theorem getElem?_decimalDigits_digitChar {value : Nat} (h : value < 10) :
    decimalDigits[value]? = some value.digitChar := by
  interval_cases value <;> rfl

theorem digitSymbol?_digitChar_iff {value : Nat} (h : value < 10) {symbol : Symbol} :
    digitSymbol? m value.digitChar = some symbol ↔ value < m ∧ UInt8.ofNat value = symbol := by
  have hdigit := getElem?_decimalDigits_digitChar h
  rw [digitSymbol?_eq_some_iff]
  constructor
  · rintro ⟨value', hvalue', rfl⟩
    obtain ⟨hlt, hvalue'⟩ := getElem?_take_eq_some_iff.mp hvalue'
    -- no digit stands twice among the ten
    have heq : value' = value := by
      have hten := (getElem?_decimalDigits.mp hvalue').1
      rw [getElem?_decimalDigits_digitChar hten, Option.some.injEq] at hvalue'
      have hcode := congrArg Char.toNat hvalue'
      rw [Nat.toNat_digitChar_of_lt_ten hten, Nat.toNat_digitChar_of_lt_ten h] at hcode
      omega
    subst heq
    exact ⟨hlt, rfl⟩
  · rintro ⟨hlt, rfl⟩
    exact ⟨value, getElem?_take_eq_some_iff.mpr ⟨hlt, hdigit⟩, rfl⟩

theorem letterState?_stateName_iff {state next : Nat} :
    letterState? (stateName state) = some next ↔ state ≤ namedStates ∧ state = next := by
  by_cases h : state ≤ namedStates
  · have hname : letterState? (stateName state) = some state := by
      have h25 : state ≤ 25 := h
      interval_cases state <;> rfl
    rw [hname, Option.some.injEq]
    exact ⟨fun heq => ⟨h, heq⟩, fun hboth => hboth.2⟩
  · have hname : letterState? (stateName state) = none := by
      rw [stateName_of_lt (Nat.lt_of_not_le h)]
      rfl
    rw [hname]
    exact ⟨fun hnone => (Option.some_ne_none _ hnone.symm).elim, fun hboth => absurd hboth.1 h⟩

theorem letter_ne_dash (d : Direction) : d.letter ≠ '-' := by
  cases d <;> decide

theorem plain_of_isDigit {c : Char} (h : c.isDigit = true) : c ≠ '_' ∧ Text.isBlank c = false := by
  have hzero : '0'.toNat = 48 := rfl
  have hnine : '9'.toNat = 57 := rfl
  rw [Char.isDigit_iff_toNat] at h
  have hdigit : decimalDigits[c.toNat - '0'.toNat]? = some c := by
    rw [getElem?_decimalDigits, ofNat_add_sub_toNat h.1]
    exact ⟨by omega, rfl⟩
  exact plain_of_all rfl (List.mem_of_getElem? hdigit)

theorem plain_stateName (state : Nat) :
    stateName state ≠ '_' ∧ Text.isBlank (stateName state) = false := by
  by_cases h : state ≤ namedStates
  · have h25 : state ≤ 25 := h
    interval_cases state <;> decide
  · rw [stateName_of_lt (Nat.lt_of_not_le h)]
    decide

/-! ## specs -/

/-- a code of `n` blocks over an alphabet of `m` symbols has a spec for the transition -/
def Sayable (m n : Nat) (t : Transition) : Prop := t.write.toNat < m ∧ t.next ≤ min n 25

theorem length_digits_le_one_iff {value : Nat} :
    (Decimal.digits value).length ≤ 1 ↔ value < 10 :=
  Nat.length_toDigits_le_iff (by decide) (by decide)

theorem writeSpec_of_ne {t : Transition} (h : t ≠ Transition.undefined) :
    writeSpec t = Decimal.digits t.write.toNat ++ [t.shift.letter, stateName t.next] := by
  rw [writeSpec, if_neg (fun hu => h (Transition.isUndefined_iff.mp hu))]

theorem writeSpec_of_lt_ten {t : Transition} (h : t ≠ Transition.undefined)
    (hdigit : t.write.toNat < 10) :
    writeSpec t = [t.write.toNat.digitChar, t.shift.letter, stateName t.next] := by
  rw [writeSpec_of_ne h, Decimal.digits_of_lt_ten hdigit]
  rfl

theorem length_writeSpec_of_ne {t : Transition} (h : t ≠ Transition.undefined) :
    (writeSpec t).length = (Decimal.digits t.write.toNat).length + 2 := by
  rw [writeSpec_of_ne h, List.length_append]
  rfl

theorem three_le_length_writeSpec (t : Transition) : 3 ≤ (writeSpec t).length := by
  by_cases h : t = Transition.undefined
  · subst h
    exact Nat.le_refl 3
  · have hpos := List.length_pos_iff.mpr (Decimal.digits_ne_nil t.write.toNat)
    rw [length_writeSpec_of_ne h]
    omega

/-- a code with a block for every letter puts no other bound on the next state -/
theorem specText_writeSpec_named_iff (hlow : 1 ≤ m) (hhigh : m ≤ 10) {t u : Transition} :
    SpecText m namedStates (writeSpec t) u ↔
      (t.write.toNat < m ∧ t.next ≤ namedStates) ∧ t = u := by
  by_cases hu : t = Transition.undefined
  · subst hu
    have hread : SpecText m namedStates placeholder u ↔
        readSpec m startState .undefined = .ok u := readSpec_ofChars_iff.symm
    rw [writeSpec_undefined, hread, readSpec, Except.ok.injEq]
    exact ⟨fun heq => ⟨⟨hlow, Nat.zero_le _⟩, heq⟩, fun hboth => hboth.2⟩
  · by_cases hten : t.write.toNat < 10
    · have hne : [t.write.toNat.digitChar, t.shift.letter, stateName t.next] ≠ placeholder := by
        intro h
        injection h with _ h
        injection h with h _
        exact letter_ne_dash t.shift h
      rw [writeSpec_of_lt_ten hu hten, ← @readSpec_ofChars_iff m startState, Spec.ofChars,
        if_neg hne, readSpec_instruction_iff, digitSymbol?_digitChar_iff hten,
        letterDirection?_letter, letterState?_stateName_iff, UInt8.ofNat_toNat]
      obtain ⟨write, shift, next⟩ := t
      obtain ⟨write', shift', next'⟩ := u
      simp only [Option.some.injEq, Transition.mk.injEq]
      tauto
    · -- two digits make the text too long for a spec
      constructor
      · intro h
        have hlength := h.length_eq
        have hdigits := mt length_digits_le_one_iff.mp hten
        rw [length_writeSpec_of_ne hu] at hlength
        omega
      · rintro ⟨⟨hwrite, _⟩, _⟩
        omega

theorem specText_writeSpec_iff (hlow : 1 ≤ m) (hhigh : m ≤ 10) {t u : Transition} :
    SpecText m n (writeSpec t) u ↔ Sayable m n t ∧ t = u := by
  have hnamed : namedStates = 25 := rfl
  rw [specText_iff_of_named, specText_writeSpec_named_iff hlow hhigh, Sayable, hnamed]
  constructor
  · rintro ⟨⟨⟨hwrite, hletter⟩, rfl⟩, hnext⟩
    exact ⟨⟨hwrite, Nat.le_min.mpr ⟨hnext, hletter⟩⟩, rfl⟩
  · rintro ⟨⟨hwrite, hnext⟩, rfl⟩
    obtain ⟨hnext, hletter⟩ := Nat.le_min.mp hnext
    exact ⟨⟨⟨hwrite, hletter⟩, rfl⟩, hnext⟩

/-- no character that is written separates blocks or is white space -/
theorem plain_writeSpec {t : Transition} {c : Char} (h : c ∈ writeSpec t) :
    c ≠ '_' ∧ Text.isBlank c = false := by
  by_cases hu : t = Transition.undefined
  · subst hu
    exact plain_of_all rfl h
  · rw [writeSpec_of_ne hu, List.mem_append, List.mem_cons, List.mem_singleton] at h
    rcases h with h | rfl | rfl
    · exact plain_of_isDigit (Decimal.isDigit_of_mem_digits h)
    · cases t.shift <;> decide
    · exact plain_stateName t.next

/-! ## blocks -/

theorem writeBlock_eq_flatten (row : List Transition) :
    writeBlock row = (row.map writeSpec).flatten := by
  rw [writeBlock, List.flatMap_def]

theorem blockText_writeBlock_iff (hlow : 1 ≤ m) (hhigh : m ≤ 10) {row row' : List Transition}
    (hwidth : row.length = m) :
    BlockText m n (writeBlock row) row' ↔ (∀ t ∈ row, Sayable m n t) ∧ row = row' := by
  have hspecs : List.Forall₂ (SpecText m n) (row.map writeSpec) row' ↔
      (∀ t ∈ row, Sayable m n t) ∧ row = row' := by
    rw [List.forall₂_map_left_iff]
    simp only [specText_writeSpec_iff hlow hhigh]
    rw [List.forall₂_and_left, List.forall₂_eq_eq_eq]
  have hlength : (row.map writeSpec).length = m := by
    rw [List.length_map, hwidth]
  rw [writeBlock_eq_flatten, ← hspecs]
  constructor
  · rintro ⟨texts, hflatten, htexts, h⟩
    have hlong : ∀ text ∈ row.map writeSpec, 3 ≤ text.length := by
      intro text htext
      obtain ⟨t, _, rfl⟩ := List.mem_map.mp htext
      exact three_le_length_writeSpec t
    have hthree : ∀ text ∈ texts, text.length = 3 := length_of_mem_specTexts h
    rw [eq_of_flatten_eq hflatten (hlength.trans htexts.symm) hlong hthree]
    exact h
  · intro h
    exact ⟨_, rfl, hlength, h⟩

theorem plain_writeBlock {row : List Transition} {c : Char} (h : c ∈ writeBlock row) :
    c ≠ '_' ∧ Text.isBlank c = false := by
  obtain ⟨t, _, hc⟩ := List.mem_flatMap.mp h
  exact plain_writeSpec hc

/-! ## tables -/

theorem encodeChars_eq_intercalate (t : Table) :
    encodeChars t = ['_'].intercalate (t.rowList.map writeBlock) := by
  rw [Table.rowList, List.map_map]
  rfl

theorem trim_encodeChars (t : Table) : Text.trim (encodeChars t) = encodeChars t := by
  apply Text.trim_of_forall
  intro c hc
  rw [encodeChars_eq_intercalate] at hc
  rcases mem_intercalate hc with hc | ⟨block, hblock, hc⟩
  · rw [List.mem_singleton.mp hc]
    rfl
  · obtain ⟨row, _, rfl⟩ := List.mem_map.mp hblock
    exact (plain_writeBlock hc).2

theorem blocks_encodeChars {t : Table} (h : 1 ≤ t.states) :
    blocks (encodeChars t) = t.rowList.map writeBlock := by
  rw [encodeChars_eq_intercalate]
  apply List.splitOn_intercalate
  · intro block hblock hmem
    obtain ⟨row, _, rfl⟩ := List.mem_map.mp hblock
    exact (plain_writeBlock hmem).1 rfl
  · intro hnil
    have hlength := congrArg List.length hnil
    rw [List.length_map, Table.length_rowList, List.length_nil] at hlength
    omega

/-- no specs make no block, for every block has as many as there are symbols -/
theorem not_codeText_nil (hlow : 1 ≤ m) {rows : List (List Transition)} :
    ¬ CodeText m [] rows := by
  intro h
  have hblocks : List.Forall₂ (BlockText m rows.length) [[]] rows := codeText_iff.mp h
  cases hblocks with
  | cons hblock _ =>
    obtain ⟨specs, hflatten, hwidth, hspecs⟩ := hblock
    have hlength := length_flatten_of_width (length_of_mem_specTexts hspecs)
    rw [← hflatten, List.length_nil] at hlength
    omega

theorem codeText_encodeChars_iff {t : Table} (hhigh : t.symbols ≤ 10)
    {rows : List (List Transition)} :
    CodeText t.symbols (encodeChars t) rows ↔
      (1 ≤ t.states ∧ ∀ e ∈ t.transitions, Sayable t.symbols t.states e) ∧ t.rowList = rows := by
  have hlow : 1 ≤ t.symbols := t.symbols_pos
  rcases Nat.eq_zero_or_pos t.states with h0 | hpos
  · have hnil : encodeChars t = [] := by
      rw [encodeChars_eq_intercalate, List.length_eq_zero_iff.mp (t.length_rowList.trans h0)]
      rfl
    rw [hnil]
    constructor
    · exact fun h => absurd h (not_codeText_nil hlow)
    · rintro ⟨⟨hstates, _⟩, _⟩
      omega
  · have hrows : List.Forall₂ (BlockText t.symbols rows.length) (t.rowList.map writeBlock) rows ↔
        (∀ row ∈ t.rowList, ∀ e ∈ row, Sayable t.symbols rows.length e) ∧ t.rowList = rows := by
      have hblock : ∀ row ∈ t.rowList, ∀ row', BlockText t.symbols rows.length (writeBlock row) row' ↔
          (∀ e ∈ row, Sayable t.symbols rows.length e) ∧ row = row' := fun row hrow row' =>
        blockText_writeBlock_iff hlow hhigh (Table.length_of_mem_rowList hrow)
      rw [List.forall₂_map_left_iff, forall₂_congr_of_mem hblock, List.forall₂_and_left,
        List.forall₂_eq_eq_eq]
    rw [codeText_iff, blocks_encodeChars hpos, hrows]
    constructor
    · rintro ⟨hsayable, rfl⟩
      rw [Table.length_rowList] at hsayable
      exact ⟨⟨hpos, Table.forall_mem_rowList_iff.mp hsayable⟩, rfl⟩
    · rintro ⟨⟨_, hsayable⟩, rfl⟩
      rw [Table.length_rowList]
      exact ⟨Table.forall_mem_rowList_iff.mpr hsayable, rfl⟩

end Holdout.Code

/-! ## reading again -/

namespace Holdout

/-- the notation has a code for the table: at least one block, one digit for every symbol, and a
letter for every state that is gone to -/
structure Table.HasCode (t : Table) : Prop where
  symbols_le : 1 ≤ t.symbols ∧ t.symbols ≤ 10
  states_pos : 1 ≤ t.states
  sayable : ∀ e ∈ t.transitions, e.write.toNat < t.symbols ∧ e.next ≤ min t.states 25

namespace Code

/-- what is read of a written table is that table, and only if it has a code -/
theorem parseTable_encode_iff {t u : Table} :
    parseTable (encode t) t.symbols = .ok u ↔ t.HasCode ∧ t = u := by
  rw [parseTable_eq_ok_iff, encode, String.toList_ofList, trim_encodeChars]
  constructor
  · rintro ⟨hbounds, rows, hcode, rfl⟩
    obtain ⟨⟨hstates, hsayable⟩, rfl⟩ := (codeText_encodeChars_iff hbounds.2).mp hcode
    exact ⟨⟨hbounds, hstates, hsayable⟩, (Table.ofList_flatten_rowList t).symm⟩
  · rintro ⟨⟨hbounds, hstates, hsayable⟩, rfl⟩
    exact ⟨hbounds, t.rowList, (codeText_encodeChars_iff hbounds.2).mpr ⟨⟨hstates, hsayable⟩, rfl⟩,
      (Table.ofList_flatten_rowList t).symm⟩

/-- **A written table is read back or refused**, whatever its alphabet, its symbols and its states:
it is read back exactly if the notation has a code for it, and it is never read as another table. -/
theorem parseTable_encode (symbols : Nat) (ts : List Transition) :
    let t := Table.ofList symbols ts
    (parseTable (encode t) t.symbols = .ok t ↔ t.HasCode) ∧
    (¬ t.HasCode → ∃ cause, parseTable (encode t) t.symbols = .error cause) ∧
    (∀ u, parseTable (encode t) t.symbols = .ok u → u = t) := by
  intro t
  have hread : ∀ u, parseTable (encode t) t.symbols = .ok u ↔ t.HasCode ∧ t = u := fun _ =>
    parseTable_encode_iff
  refine ⟨?_, ?_, fun u hu => ((hread u).mp hu).2.symm⟩
  · rw [hread]
    exact and_iff_left rfl
  · intro hno
    cases h : parseTable (encode t) t.symbols with
    | error cause => exact ⟨cause, rfl⟩
    | ok u => exact absurd ((hread u).mp h).1 hno

end Code

end Holdout
