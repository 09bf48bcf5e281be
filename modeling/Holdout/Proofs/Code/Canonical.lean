import Holdout.Proofs.Code.RoundTrip
import Holdout.Proofs.Decoded
import Mathlib.Data.List.TakeWhile

/-!
# The canonical form of a code

Two codes of one table differ in white space around them and in how they say an undefined
transition: by the placeholder, or spelled out as `0RZ`.  The canonical form has the placeholder
everywhere, and it is what is written of the table.

* `canonicalBlock`, `canonical`   a block and a text with the placeholder for every `0RZ`;
* `canonical_place_by_place`  where a spec `0RZ` stands there is a dash, and every other character
                              stays;
* `canonicalCode`             the canonical form of a code;
* `encode_of_parseTable_eq`   what was read of a code is written as its canonical form;
* `encode_canonical`          hence codes of one table are those with one canonical form, and
                              nothing is gained by reading what was written.
-/

namespace Holdout.Code

variable {m n : Nat}

/-! ## the canonical form -/

/-- the transition that the placeholder stands for, spelled out -/
def spelledUndefined : List Char := ['0', 'R', 'Z']

def canonicalSpec (text : List Char) : List Char :=
  if text = spelledUndefined then placeholder else text

/-- a block, cut into specs from its left end -/
def canonicalBlock : List Char → List Char
  | write :: shift :: jump :: rest => canonicalSpec [write, shift, jump] ++ canonicalBlock rest
  | rest => rest

/-- a text, cut into blocks at its underscores -/
def canonical (text : List Char) : List Char :=
  ['_'].intercalate ((text.splitOn '_').map canonicalBlock)

theorem canonicalSpec_of_ne {text : List Char} (h : text ≠ spelledUndefined) :
    canonicalSpec text = text := if_neg h

theorem length_canonicalSpec {text : List Char} (h : text.length = 3) :
    (canonicalSpec text).length = 3 := by
  rw [canonicalSpec]
  split
  · rfl
  · exact h

theorem canonicalBlock_append {spec : List Char} (h : spec.length = 3) (rest : List Char) :
    canonicalBlock (spec ++ rest) = canonicalSpec spec ++ canonicalBlock rest := by
  match spec, h with
  | [_, _, _], _ => rfl

theorem canonicalBlock_flatten {specs : List (List Char)} (h : ∀ spec ∈ specs, spec.length = 3) :
    canonicalBlock specs.flatten = (specs.map canonicalSpec).flatten := by
  induction specs with
  | nil => rfl
  | cons spec specs ih =>
    have hspec := h spec List.mem_cons_self
    rw [List.flatten_cons, List.map_cons, List.flatten_cons, canonicalBlock_append hspec,
      ih fun s hs => h s (List.mem_cons_of_mem spec hs)]

/-! ## place by place -/

/-- the three characters from a place on, or what is left of the text -/
def specAt (text : List Char) (start : Nat) : List Char := (text.drop start).take 3

/-- how many characters stand between the start of a block and a place in it -/
def column (text : List Char) (i : Nat) : Nat :=
  ((text.take i).reverse.takeWhile (· != '_')).length

/-- the spec around a place; specs are counted from the start of their block -/
def specAround (text : List Char) (i : Nat) : List Char := specAt text (i - column text i % 3)

theorem specAt_append_right (before after : List Char) (start : Nat) :
    specAt (before ++ after) (before.length + start) = specAt after start := by
  rw [specAt, specAt, List.drop_append, List.drop_eq_nil_of_le (by omega), List.nil_append,
    Nat.add_sub_cancel_left]

theorem specAt_ne_spelled {text : List Char} {start : Nat} (h : text.length < start + 3) :
    specAt text start ≠ spelledUndefined := by
  intro heq
  have hlength := congrArg List.length heq
  have hthree : spelledUndefined.length = 3 := rfl
  rw [specAt, List.length_take, List.length_drop] at hlength
  omega

/-- a spec does not reach over the end of its block -/
theorem specAt_append_eq_spelled_iff {before after : List Char} {start : Nat}
    (h : start ≤ before.length) : specAt (before ++ '_' :: after) start = spelledUndefined ↔
      specAt before start = spelledUndefined := by
  rcases Nat.lt_or_ge before.length (start + 3) with hlt | hge
  · have hsep : '_' ∈ specAt (before ++ '_' :: after) start := by
      have hat : (specAt (before ++ '_' :: after) start)[before.length - start]? = some '_' := by
        rw [specAt, List.getElem?_take, if_pos (by omega), List.getElem?_drop,
          Nat.add_sub_cancel' h, List.getElem?_append_right (Nat.le_refl _), Nat.sub_self]
        rfl
      exact List.mem_of_getElem? hat
    constructor
    · intro heq
      rw [heq] at hsep
      exact absurd hsep (by decide)
    · intro heq
      exact absurd heq (specAt_ne_spelled hlt)
  · have hdrop : 3 ≤ (before.drop start).length := by
      rw [List.length_drop]
      omega
    rw [specAt, specAt, List.drop_append_of_le_length h, List.take_append_of_le_length hdrop]

/-- the characters of a block: where a spec `0RZ` stands there is a dash -/
theorem getElem?_canonicalBlock (block : List Char) (i : Nat) :
    (canonicalBlock block)[i]? =
      if specAt block (i - i % 3) = spelledUndefined then some '-' else block[i]? := by
  fun_induction canonicalBlock block generalizing i with
  | case1 write shift jump rest ih =>
    have hlength : (canonicalSpec [write, shift, jump]).length = 3 := length_canonicalSpec rfl
    rcases Nat.lt_or_ge i 3 with hi | hi
    · have hstart : i - i % 3 = 0 := by omega
      have hspec : specAt (write :: shift :: jump :: rest) 0 = [write, shift, jump] := rfl
      have hchar : (write :: shift :: jump :: rest)[i]? = [write, shift, jump][i]? := by
        show ([write, shift, jump] ++ rest)[i]? = _
        exact List.getElem?_append_left hi
      rw [hstart, hspec, hchar, List.getElem?_append_left (by omega), canonicalSpec]
      split
      · have hdash : ∀ k < 3, placeholder[k]? = some '-' := by decide
        exact hdash i hi
      · rfl
    · obtain ⟨k, rfl⟩ := Nat.exists_eq_add_of_le hi
      have hstart : 3 + k - (3 + k) % 3 = 3 + (k - k % 3) := by omega
      have hspec : specAt (write :: shift :: jump :: rest) (3 + (k - k % 3)) =
          specAt rest (k - k % 3) := specAt_append_right [write, shift, jump] rest _
      have hchar : (write :: shift :: jump :: rest)[3 + k]? = rest[k]? := by
        rw [Nat.add_comm]
        rfl
      rw [hstart, hspec, hchar, List.getElem?_append_right (by omega), hlength,
        Nat.add_sub_cancel_left]
      exact ih k
  | case2 rest hshort =>
    have hlt : rest.length < 3 := by
      by_contra hge
      match rest, hshort with
      | write :: shift :: jump :: rest, hshort => exact hshort write shift jump rest rfl
      | [], _ | [_], _ | [_, _], _ => exact hge (by simp)
    rw [if_neg (specAt_ne_spelled (by omega))]

theorem length_canonicalBlock (block : List Char) :
    (canonicalBlock block).length = block.length := by
  fun_induction canonicalBlock block with
  | case1 write shift jump rest ih =>
    rw [List.length_append, length_canonicalSpec rfl, ih]
    simp only [List.length_cons]
    omega
  | case2 rest hshort => rfl

/-! ## columns -/

theorem column_append_left {block : List Char} (h : '_' ∉ block) (rest : List Char) {i : Nat}
    (hi : i ≤ block.length) : column (block ++ rest) i = i := by
  have hall : ∀ c ∈ (block.take i).reverse, (c != '_') = true := by
    intro c hc
    rw [bne_iff_ne]
    rintro rfl
    exact h (List.mem_of_mem_take (List.mem_reverse.mp hc))
  rw [column, List.take_append_of_le_length hi, List.takeWhile_eq_self_iff.mpr hall,
    List.length_reverse, List.length_take, Nat.min_eq_left hi]

/-- columns are counted from the last separator -/
theorem column_append_right (block rest : List Char) (i : Nat) :
    column (block ++ '_' :: rest) (block.length + (i + 1)) = column rest i := by
  have htake : (block ++ '_' :: rest).take (block.length + (i + 1)) =
      block ++ '_' :: rest.take i := by
    rw [List.take_append, List.take_of_length_le (by omega), Nat.add_sub_cancel_left,
      List.take_succ_cons]
  have hreverse : (block ++ '_' :: rest.take i).reverse =
      (rest.take i).reverse ++ '_' :: block.reverse := by
    simp
  rw [column, column, htake, hreverse, List.takeWhile_append]
  split
  · next hall =>
    rw [List.length_append, hall]
    rfl
  · rfl

/-! ## texts of several blocks -/

theorem intercalate_cons_cons_eq (block block' : List Char) (blocks : List (List Char)) :
    ['_'].intercalate (block :: block' :: blocks) =
      block ++ '_' :: ['_'].intercalate (block' :: blocks) := by
  rw [List.intercalate_cons_cons, List.append_assoc]
  rfl

theorem specAround_append_left {block : List Char} (h : '_' ∉ block) (rest : List Char) {i : Nat}
    (hi : i ≤ block.length) : specAround (block ++ '_' :: rest) i = spelledUndefined ↔
      specAt block (i - i % 3) = spelledUndefined := by
  rw [specAround, column_append_left h _ hi]
  exact specAt_append_eq_spelled_iff (by omega)

theorem specAround_append_right (block rest : List Char) (i : Nat) :
    specAround (block ++ '_' :: rest) (block.length + (i + 1)) = specAround rest i := by
  have hcolumn : column rest i % 3 ≤ i := by
    have hle : column rest i ≤ i := by
      have hprefix := (List.takeWhile_prefix (l := (rest.take i).reverse) (· != '_')).length_le
      rw [List.length_reverse, List.length_take] at hprefix
      exact Nat.le_trans hprefix (Nat.min_le_left _ _)
    exact Nat.le_trans (Nat.mod_le _ _) hle
  have hstart : block.length + (i + 1) - column rest i % 3 =
      (block ++ ['_']).length + (i - column rest i % 3) := by
    rw [List.length_append, List.length_singleton]
    omega
  have hsplit : block ++ '_' :: rest = (block ++ ['_']) ++ rest := by simp
  rw [specAround, specAround, column_append_right, hstart, hsplit, specAt_append_right]

theorem getElem?_append_cons_add (block rest : List Char) (i : Nat) :
    (block ++ '_' :: rest)[block.length + (i + 1)]? = rest[i]? := by
  rw [List.getElem?_append_right (by omega), Nat.add_sub_cancel_left, List.getElem?_cons_succ]

theorem length_intercalate_canonicalBlock (bs : List (List Char)) :
    (['_'].intercalate (bs.map canonicalBlock)).length = (['_'].intercalate bs).length := by
  induction bs with
  | nil => rfl
  | cons block bs ih =>
    cases bs with
    | nil =>
      rw [List.map_singleton, List.intercalate_singleton, List.intercalate_singleton,
        length_canonicalBlock]
    | cons block' bs =>
      rw [List.map_cons] at ih
      rw [List.map_cons, List.map_cons, intercalate_cons_cons_eq, intercalate_cons_cons_eq,
        List.length_append, List.length_append, List.length_cons, List.length_cons, ih,
        length_canonicalBlock]

theorem getElem?_intercalate_canonicalBlock {bs : List (List Char)} (h : ∀ block ∈ bs, '_' ∉ block)
    {i : Nat} (hi : i < (['_'].intercalate bs).length) :
    (['_'].intercalate (bs.map canonicalBlock))[i]? =
      if specAround (['_'].intercalate bs) i = spelledUndefined then some '-'
      else (['_'].intercalate bs)[i]? := by
  induction bs generalizing i with
  | nil => cases hi
  | cons block bs ih =>
    have hblock := h block List.mem_cons_self
    cases bs with
    | nil =>
      rw [List.intercalate_singleton] at hi
      have hcolumn := column_append_left hblock [] (Nat.le_of_lt hi)
      rw [List.append_nil] at hcolumn
      rw [List.map_singleton, List.intercalate_singleton, List.intercalate_singleton, specAround,
        hcolumn, getElem?_canonicalBlock]
    | cons block' bs =>
      rw [intercalate_cons_cons_eq] at hi ⊢
      rw [List.length_append, List.length_cons] at hi
      have hlength := length_canonicalBlock block
      rw [List.map_cons, List.map_cons, intercalate_cons_cons_eq, ← List.map_cons]
      rcases Nat.lt_trichotomy i block.length with hlt | heq | hgt
      · simp only [specAround_append_left hblock _ (Nat.le_of_lt hlt)]
        rw [List.getElem?_append_left (by omega), List.getElem?_append_left hlt]
        exact getElem?_canonicalBlock block i
      · have hne : ¬ specAt block (i - i % 3) = spelledUndefined := specAt_ne_spelled (by omega)
        simp only [specAround_append_left hblock _ (Nat.le_of_eq heq), if_neg hne]
        rw [List.getElem?_append_right (by omega), List.getElem?_append_right (by omega), hlength]
        simp only [heq, Nat.sub_self, List.getElem?_cons_zero]
      · obtain ⟨k, rfl⟩ := Nat.exists_eq_add_of_lt hgt
        rw [Nat.add_assoc, specAround_append_right, getElem?_append_cons_add, ← hlength,
          getElem?_append_cons_add]
        exact ih (fun b hb => h b (List.mem_cons_of_mem block hb)) (by omega)

/-! ## writing what was read -/

/-- a digit of the alphabet is the one that is written for its symbol -/
theorem eq_digitChar_of_getElem?_take {value : Nat} {digit : Char}
    (h : (decimalDigits.take m)[value]? = some digit) :
    (UInt8.ofNat value).toNat < 10 ∧ digit = (UInt8.ofNat value).toNat.digitChar := by
  have hten := (getElem?_take_eq_some_iff.mp h).2
  have hlt := (getElem?_decimalDigits.mp hten).1
  rw [getElem?_decimalDigits_digitChar hlt, Option.some.injEq] at hten
  rw [UInt8.toNat_ofNat_of_lt' (show value < 256 by omega)]
  exact ⟨hlt, hten.symm⟩

theorem getElem?_capitalLetters_stateName {i : Nat} (h : i < 25) :
    capitalLetters[i]? = some (stateName (i + 1)) := by
  interval_cases i <;> rfl

/-- a spec is the placeholder or spells its transition -/
theorem eq_placeholder_or_spelled {text : List Char} {t : Transition} (h : SpecText m n text t) :
    (text = placeholder ∧ t = Transition.undefined) ∨ (t.write.toNat < 10 ∧
      text = [t.write.toNat.digitChar, t.shift.letter, stateName t.next]) := by
  cases h with
  | placeholder => exact Or.inl ⟨rfl, rfl⟩
  | halt d hvalue =>
    obtain ⟨hten, rfl⟩ := eq_digitChar_of_getElem?_take hvalue
    exact Or.inr ⟨hten, rfl⟩
  | jump d hvalue hletter =>
    obtain ⟨hten, rfl⟩ := eq_digitChar_of_getElem?_take hvalue
    obtain ⟨hlt, hletter⟩ := getElem?_take_eq_some_iff.mp hletter
    rw [getElem?_capitalLetters_stateName (by omega), Option.some.injEq] at hletter
    rw [← hletter]
    exact Or.inr ⟨hten, rfl⟩

theorem eq_undefined_of_spelled {t : Transition} (h : SpecText m n spelledUndefined t) :
    t = Transition.undefined := by
  have hread : readSpec m startState (.instruction '0' 'R' 'Z') = .ok t :=
    readSpec_ofChars_iff.mpr (specText_iff_of_named.mp h).1
  obtain ⟨hwrite, hshift, hnext⟩ := readSpec_instruction_iff.mp hread
  have hzero : digitSymbol? m (Nat.digitChar 0) = some t.write := hwrite
  obtain ⟨write, shift, next⟩ := t
  cases ((digitSymbol?_digitChar_iff (by decide)).mp hzero).2
  cases hshift
  cases hnext
  rfl

theorem writeSpec_of_specText {text : List Char} {t : Transition} (h : SpecText m n text t) :
    writeSpec t = canonicalSpec text := by
  rcases eq_placeholder_or_spelled h with ⟨rfl, rfl⟩ | ⟨hten, htext⟩
  · rfl
  · by_cases hu : t = Transition.undefined
    · subst hu
      rw [htext]
      rfl
    · have hne : text ≠ spelledUndefined := by
        rintro rfl
        exact hu (eq_undefined_of_spelled h)
      rw [writeSpec_of_lt_ten hu hten, canonicalSpec_of_ne hne, htext]

theorem writeBlock_of_blockText {text : List Char} {row : List Transition}
    (h : BlockText m n text row) : writeBlock row = canonicalBlock text := by
  obtain ⟨specs, rfl, _, hspecs⟩ := h
  have hwritten : specs.map canonicalSpec = row.map writeSpec :=
    map_eq_map_iff_forall₂.mpr (hspecs.imp fun _ _ ht => (writeSpec_of_specText ht).symm)
  rw [canonicalBlock_flatten (length_of_mem_specTexts hspecs), hwritten, writeBlock_eq_flatten]

theorem encodeChars_of_codeText (hlow : 1 ≤ m) {text : List Char} {rows : List (List Transition)}
    (h : CodeText m text rows) :
    encodeChars (Table.ofList m rows.flatten) = canonical text := by
  have hblocks := codeText_iff.mp h
  have hwritten : (blocks text).map canonicalBlock = rows.map writeBlock :=
    map_eq_map_iff_forall₂.mpr (hblocks.imp fun _ _ hblock => (writeBlock_of_blockText hblock).symm)
  rw [encodeChars_eq_intercalate, Table.rowList_ofList_flatten hlow h.length_row, ← hwritten]
  rfl

/-! ## reading it again -/

theorem SpecText.sayable (hlow : 1 ≤ m) {text : List Char} {t : Transition}
    (h : SpecText m n text t) : Sayable m n t := by
  obtain ⟨hwrite, hnext⟩ := h.transition_lt hlow
  have hletter := ((specText_iff_of_named.mp h).1.transition_lt hlow).2
  exact ⟨hwrite, Nat.le_min.mpr ⟨hnext, hletter⟩⟩

theorem CodeText.sayable (hlow : 1 ≤ m) {text : List Char} {rows : List (List Transition)}
    (h : CodeText m text rows) : ∀ row ∈ rows, ∀ t ∈ row, Sayable m rows.length t := by
  obtain ⟨_, _, _, hblocks⟩ := h
  intro row hrow t ht
  obtain ⟨_, _, specs, _, _, hspecs⟩ := exists_of_mem_right hblocks hrow
  obtain ⟨_, _, hspec⟩ := exists_of_mem_right hspecs ht
  exact hspec.sayable hlow

/-- a table that was read from a code has one -/
theorem hasCode_of_parseTable {code : String} {t : Table} (h : parseTable code m = .ok t) :
    t.symbols = m ∧ t.HasCode := by
  have hstates := (closed_of_parseTable h).states_pos
  obtain ⟨hbounds, rows, hcode, rfl⟩ := parseTable_eq_ok_iff.mp h
  have hdenotes := denotes_ofList_flatten hbounds.1 hcode.length_row
  have hsayable : ∀ row ∈ (Table.ofList m rows.flatten).rowList, ∀ t ∈ row,
      Sayable m (Table.ofList m rows.flatten).states t := by
    rw [Table.rowList_ofList_flatten hbounds.1 hcode.length_row, hdenotes.states_eq]
    exact hcode.sayable hbounds.1
  refine ⟨hdenotes.symbols_eq, ?_, hstates, ?_⟩
  · rw [hdenotes.symbols_eq]
    exact hbounds
  · rw [hdenotes.symbols_eq]
    exact Table.forall_mem_rowList_iff.mp hsayable

theorem parseTable_encode_of_parseTable {code : String} {t : Table}
    (h : parseTable code m = .ok t) : parseTable (encode t) m = .ok t := by
  obtain ⟨rfl, hcode⟩ := hasCode_of_parseTable h
  exact parseTable_encode_iff.mpr ⟨hcode, rfl⟩

/-- the canonical form of a code: without white space around it and with the placeholder for every
undefined transition -/
def canonicalCode (code : String) : String := String.ofList (canonical (Text.trim code.toList))

/-- what was read of a code is written as its canonical form -/
theorem encode_of_parseTable_eq {code : String} {t : Table} (h : parseTable code m = .ok t) :
    encode t = canonicalCode code := by
  obtain ⟨hbounds, rows, hcode, rfl⟩ := parseTable_eq_ok_iff.mp h
  rw [encode, encodeChars_of_codeText hbounds.1 hcode]
  rfl

theorem eq_iff_canonicalCode_eq {code code' : String} {t t' : Table}
    (h : parseTable code m = .ok t) (h' : parseTable code' m = .ok t') :
    t = t' ↔ canonicalCode code = canonicalCode code' := by
  rw [← encode_of_parseTable_eq h, ← encode_of_parseTable_eq h']
  constructor
  · intro heq
    rw [heq]
  · intro heq
    have hread := parseTable_encode_of_parseTable h
    rw [heq, parseTable_encode_of_parseTable h', Except.ok.injEq] at hread
    exact hread.symm

/-! ## trimmed codes -/

theorem trimString_of_parseTable {code : String} {t : Table} (h : parseTable code m = .ok t) :
    Text.trimString (Text.trimString code) = Text.trimString code := by
  obtain ⟨_, _, hcode, _⟩ := parseTable_eq_ok_iff.mp h
  rw [Text.trimString, Text.toList_trimString, Text.trim_of_forall hcode.not_blank]
  rfl

theorem parseTable_trimString {code : String} {t : Table} (h : parseTable code m = .ok t) :
    parseTable (Text.trimString code) m = .ok t := by
  obtain ⟨hbounds, rows, hcode, ht⟩ := parseTable_eq_ok_iff.mp h
  rw [parseTable_eq_ok_iff, Text.toList_trimString, Text.trim_of_forall hcode.not_blank]
  exact ⟨hbounds, rows, hcode, ht⟩

/-- the code that a decoded machine keeps is one of its own, however it was come by -/
theorem decodeOn_code_of_decoded {machine : Machine} (h : Decoded m machine) :
    decodeOn machine.code m machine.allTape = .ok machine := by
  obtain ⟨code, hcode⟩ := h.exists_decodeOn
  obtain ⟨htable, hname, _⟩ := decodeOn_eq_ok_iff.mp hcode
  rw [decodeOn_eq_ok_iff, hname, trimString_of_parseTable htable]
  exact ⟨parseTable_trimString htable, rfl, rfl⟩

/-! ## codes of one table -/

theorem canonical_place_by_place {text : List Char} {rows : List (List Transition)}
    (h : CodeText m text rows) : (canonical text).length = text.length ∧
      ∀ i < text.length, (canonical text)[i]? =
        if specAround text i = spelledUndefined then some '-' else text[i]? := by
  obtain ⟨bs, hne, rfl, hblocks⟩ := h
  have hplain : ∀ block ∈ bs, '_' ∉ block := by
    intro block hblock hmem
    obtain ⟨row, _, hrow⟩ := exists_of_mem_left hblocks hblock
    exact (hrow.plain '_' hmem).1 rfl
  have hcanonical : canonical (['_'].intercalate bs) = ['_'].intercalate (bs.map canonicalBlock) := by
    rw [canonical, List.splitOn_intercalate '_' hplain hne]
  rw [hcanonical]
  exact ⟨length_intercalate_canonicalBlock bs, fun i hi =>
    getElem?_intercalate_canonicalBlock hplain hi⟩

/-- **What was read of a code is written as its canonical form**: the code without white space
around it, with dashes in the place of every spec `0RZ`, counted from the start of its block, and
with every other character as it was.  So codes are read as one table exactly if they have one
canonical form, what was written is read and written again without a change, and a machine is
decoded again from the code that it keeps. -/
theorem encode_canonical {code : String} {t : Table} (h : parseTable code m = .ok t) :
    encode t = canonicalCode code ∧
    ((encode t).toList.length = (Text.trim code.toList).length ∧
      ∀ i < (Text.trim code.toList).length, (encode t).toList[i]? =
        if specAround (Text.trim code.toList) i = ['0', 'R', 'Z'] then some '-'
        else (Text.trim code.toList)[i]?) ∧
    (∀ code' t', parseTable code' m = .ok t' →
      (t = t' ↔ canonicalCode code = canonicalCode code')) ∧
    (∃ u, parseTable (encode t) m = .ok u ∧ encode u = encode t) ∧
    (∀ blank machine, decodeOn code m blank = .ok machine →
      decodeOn machine.code m blank = .ok machine) := by
  have hwritten := encode_of_parseTable_eq h
  refine ⟨hwritten, ?_, fun _ _ h' => eq_iff_canonicalCode_eq h h',
    ⟨t, parseTable_encode_of_parseTable h, rfl⟩, ?_⟩
  · obtain ⟨_, _, hcode, _⟩ := parseTable_eq_ok_iff.mp h
    rw [hwritten, canonicalCode, String.toList_ofList]
    exact canonical_place_by_place hcode
  · intro blank machine hmachine
    have hagain := decodeOn_code_of_decoded (.decodeOn hmachine)
    rw [(decodeOn_eq_ok_iff.mp hmachine).2.2] at hagain
    exact hagain

/-- a code with white space around it and two transitions spelled out, one at the start of a
block -/
theorem encode_canonical_spelled : ∃ t, parseTable " 1RB0RZ_0RZ1LA\n" 2 = .ok t ∧
    encode t = "1RB---_---1LA" ∧ ∃ u, parseTable "1RB---_---1LA" 2 = .ok u ∧ t = u := by
  obtain ⟨t, ht⟩ : ∃ t, parseTable " 1RB0RZ_0RZ1LA\n" 2 = .ok t := ⟨_, rfl⟩
  obtain ⟨u, hu⟩ : ∃ u, parseTable "1RB---_---1LA" 2 = .ok u := ⟨_, rfl⟩
  obtain ⟨hwritten, _, hsame, _⟩ := encode_canonical ht
  exact ⟨t, ht, hwritten.trans (by decide), u, hu, (hsame _ u hu).mpr (by decide)⟩

end Holdout.Code
