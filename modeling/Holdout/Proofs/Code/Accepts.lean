import Holdout.Proofs.Code.Specs
import Holdout.Proofs.Table

/-!
# Which codes are read

* `map_named_of_readBlocks`   the letters of the specs name the next states of the transitions, so
                              the order check looks at the table;
* `exists_readBlocks_iff`     the blocks of a code, apart from the order of the states;
* `parseTable_eq_ok_iff`      a code is read exactly if it is one of the language;
* `parseTable_accepts`        the same with the entries of the table, and there is no bound on the
                              number of blocks.
-/

namespace Holdout.Code

variable {m n : Nat}

/-! ## the order of the states -/

/-- the state that the jump of a spec names, the halted one if it has none -/
def Spec.named (s : Spec) : Nat := (s.jump?.bind letterState?).getD haltState

theorem lastNamed_le_iff {cs : List Char} :
    lastNamed cs ≤ n ↔ ∀ c ∈ cs, (letterState? c).getD haltState ≤ n := by
  induction cs with
  | nil => simp [lastNamed, haltState]
  | cons c cs ih =>
    show max ((letterState? c).getD haltState) (lastNamed cs) ≤ n ↔ _
    rw [Nat.max_le, ih, List.forall_mem_cons]

theorem checkOrder_eq_ok_iff {cs : List Char} :
    checkOrder cs n = .ok () ↔ lastNamed cs ≤ n := by
  unfold checkOrder
  split
  · next h =>
    simp only [reduceCtorEq, false_iff]
    omega
  · next h =>
    simp only [true_iff]
    omega

theorem lastNamed_jumps_le_iff {sss : List (List Spec)} :
    lastNamed (jumps sss) ≤ n ↔ ∀ s ∈ sss.flatten, s.named ≤ n := by
  rw [lastNamed_le_iff]
  constructor
  · intro h s hs
    cases s with
    | undefined => exact Nat.zero_le n
    | instruction write shift jump =>
      exact h jump (List.mem_filterMap.mpr ⟨_, hs, rfl⟩)
  · intro h c hc
    obtain ⟨s, hs, hjump⟩ := List.mem_filterMap.mp hc
    have hle := h s hs
    rw [Spec.named, hjump] at hle
    exact hle

theorem readSpec_next {state : Nat} {s : Spec} {t : Transition}
    (h : readSpec m state s = .ok t) : s.named = t.next := by
  cases s with
  | undefined =>
    cases h
    rfl
  | instruction write shift jump =>
    have hjump := (readSpec_instruction_iff.mp h).2.2
    show (letterState? jump).getD haltState = t.next
    rw [hjump, Option.getD_some]

theorem map_named_of_readSpec {state : Nat} {ss : List Spec} {row : List Transition}
    (h : List.Forall₂ (fun s t => readSpec m state s = .ok t) ss row) :
    ss.map Spec.named = row.map Transition.next :=
  map_eq_map_iff_forall₂.mpr (h.imp fun _ _ hs => readSpec_next hs)

/-! ## blocks -/

theorem layoutFrom_cons_iff {code : List Char} {position : Nat} {b : List Char}
    {bs : List (List Char)} {sss : List (List Spec)} :
    layoutFrom code position (b :: bs) = .ok sss ↔ ∃ ss later, specs b = .ok ss ∧
      layoutFrom code (position + b.length + 1) bs = .ok later ∧ sss = ss :: later := by
  rw [layoutFrom]
  cases specs b with
  | error part => simp
  | ok ss =>
    cases layoutFrom code (position + b.length + 1) bs with
    | error misfit => simp
    | ok later => simp [eq_comm]

theorem readBlocks_cons_iff {state : Nat} {ss : List Spec} {sss : List (List Spec)}
    {ts : List Transition} :
    readBlocks m state (ss :: sss) = .ok ts ↔ ∃ row later, readBlock m state ss = .ok row ∧
      readBlocks m (state + 1) sss = .ok later ∧ ts = row ++ later := by
  rw [readBlocks, bind_eq_ok_iff]
  constructor
  · rintro ⟨row, hrow, h⟩
    obtain ⟨later, hlater, h⟩ := bind_eq_ok_iff.mp h
    exact ⟨row, later, hrow, hlater, pure_eq_ok_iff.mp h⟩
  · rintro ⟨row, later, hrow, hlater, rfl⟩
    exact ⟨row, hrow, bind_eq_ok_iff.mpr ⟨later, hlater, rfl⟩⟩

theorem map_named_of_readBlocks {state : Nat} {sss : List (List Spec)} {ts : List Transition}
    (h : readBlocks m state sss = .ok ts) :
    sss.flatten.map Spec.named = ts.map Transition.next := by
  induction sss generalizing state ts with
  | nil =>
    cases h
    rfl
  | cons ss sss ih =>
    obtain ⟨row, later, hrow, hlater, rfl⟩ := readBlocks_cons_iff.mp h
    rw [List.flatten_cons, List.map_append, List.map_append, ih hlater,
      map_named_of_readSpec (readBlock_eq_ok_iff.mp hrow).2]

/-- the order check looks at the states that the transitions go to -/
theorem lastNamed_jumps_le_iff_of_readBlocks {state : Nat} {sss : List (List Spec)}
    {ts : List Transition} (h : readBlocks m state sss = .ok ts) :
    lastNamed (jumps sss) ≤ n ↔ ∀ t ∈ ts, t.next ≤ n := by
  have hforall : (∀ next ∈ sss.flatten.map Spec.named, next ≤ n) ↔
      ∀ next ∈ ts.map Transition.next, next ≤ n := by
    rw [map_named_of_readBlocks h]
  rw [List.forall_mem_map, List.forall_mem_map] at hforall
  rw [lastNamed_jumps_le_iff]
  exact hforall

/-- apart from the order of the states, a code is read block by block -/
theorem exists_readBlocks_iff {code : List Char} {position state : Nat} {bs : List (List Char)}
    {ts : List Transition} :
    (∃ sss, layoutFrom code position bs = .ok sss ∧ readBlocks m state sss = .ok ts) ↔
      ∃ rows, List.Forall₂ (BlockText m namedStates) bs rows ∧ ts = rows.flatten := by
  induction bs generalizing position state ts with
  | nil =>
    constructor
    · rintro ⟨sss, hsss, hts⟩
      cases hsss
      cases hts
      exact ⟨[], .nil, rfl⟩
    · rintro ⟨rows, hrows, rfl⟩
      cases hrows
      exact ⟨[], rfl, rfl⟩
  | cons b bs ih =>
    constructor
    · rintro ⟨sss, hsss, hts⟩
      obtain ⟨ss, laterSpecs, hss, hlaterSpecs, rfl⟩ := layoutFrom_cons_iff.mp hsss
      obtain ⟨row, later, hrow, hlater, rfl⟩ := readBlocks_cons_iff.mp hts
      obtain ⟨rows, hrows, rfl⟩ := ih.mp ⟨laterSpecs, hlaterSpecs, hlater⟩
      exact ⟨row :: rows, .cons (exists_readBlock_iff.mp ⟨ss, hss, hrow⟩) hrows, rfl⟩
    · rintro ⟨rows, hrows, rfl⟩
      cases hrows with
      | cons hblock hblocks =>
        obtain ⟨ss, hss, hrow⟩ := exists_readBlock_iff.mpr hblock
        obtain ⟨sss, hsss, hlater⟩ := ih.mpr ⟨_, hblocks, rfl⟩
        exact ⟨ss :: sss, layoutFrom_cons_iff.mpr ⟨ss, sss, hss, hsss, rfl⟩,
          readBlocks_cons_iff.mpr ⟨_, _, hrow, hlater, rfl⟩⟩

/-! ## codes -/

theorem tableOfSpecs_eq_ok_iff {sss : List (List Spec)} {t : Table} :
    tableOfSpecs m sss = .ok t ↔ ∃ ts, readBlocks m startState sss = .ok ts ∧
      (∀ entry ∈ ts, entry.next ≤ sss.length) ∧ t = Table.ofList m ts := by
  rw [tableOfSpecs, bind_eq_ok_iff]
  constructor
  · rintro ⟨_, horder, h⟩
    obtain ⟨ts, hts, h⟩ := bind_eq_ok_iff.mp h
    exact ⟨ts, hts, (lastNamed_jumps_le_iff_of_readBlocks hts).mp (checkOrder_eq_ok_iff.mp horder),
      pure_eq_ok_iff.mp h⟩
  · rintro ⟨ts, hts, hnext, rfl⟩
    have horder := (lastNamed_jumps_le_iff_of_readBlocks hts).mpr hnext
    exact ⟨(), checkOrder_eq_ok_iff.mpr horder, bind_eq_ok_iff.mpr ⟨ts, hts, rfl⟩⟩

theorem parseTrimmed_eq_ok_iff {text : List Char} {t : Table} :
    parseTrimmed text m = .ok t ↔ (1 ≤ m ∧ m ≤ DecodeError.maxSymbols) ∧
      ∃ sss, layout text = .ok sss ∧ tableOfSpecs m sss = .ok t := by
  unfold parseTrimmed
  split
  · next hsize =>
    simp only [Bool.or_eq_true, decide_eq_true_eq] at hsize
    simp only [reduceCtorEq, false_iff]
    rintro ⟨hbounds, _⟩
    omega
  · next hsize =>
    simp only [Bool.or_eq_true, decide_eq_true_eq, not_or, Nat.not_lt] at hsize
    have hbounds : 1 ≤ m ∧ m ≤ DecodeError.maxSymbols := by omega
    cases layout text with
    | error misfit => simp
    | ok sss => simp [hbounds]

/-- joining blocks with underscores and splitting at underscores undo one another -/
theorem codeText_iff {text : List Char} {rows : List (List Transition)} :
    CodeText m text rows ↔ List.Forall₂ (BlockText m rows.length) (blocks text) rows := by
  constructor
  · rintro ⟨bs, hne, rfl, hblocks⟩
    have hsplit : blocks (['_'].intercalate bs) = bs := by
      refine List.splitOn_intercalate '_' ?_ hne
      intro b hb hmem
      obtain ⟨row, _, hrow⟩ := exists_of_mem_left hblocks hb
      exact (hrow.plain '_' hmem).1 rfl
    rw [hsplit]
    exact hblocks
  · intro h
    exact ⟨blocks text, blocks_ne_nil text, (List.intercalate_splitOn '_').symm, h⟩

theorem forall₂_blockText_iff {bs : List (List Char)} {rows : List (List Transition)} :
    List.Forall₂ (BlockText m n) bs rows ↔
      List.Forall₂ (BlockText m namedStates) bs rows ∧ ∀ t ∈ rows.flatten, t.next ≤ n := by
  have hflatten : (∀ row ∈ rows, ∀ t ∈ row, t.next ≤ n) ↔ ∀ t ∈ rows.flatten, t.next ≤ n :=
    List.forall_mem_flatten.symm
  rw [← hflatten, ← forall₂_and_right_iff]
  simp only [← blockText_iff_of_named]

/-- a code is read exactly if it is one of the language -/
theorem parseTable_eq_ok_iff {code : String} {t : Table} :
    parseTable code m = .ok t ↔ (1 ≤ m ∧ m ≤ DecodeError.maxSymbols) ∧
      ∃ rows, CodeText m (Text.trim code.toList) rows ∧ t = Table.ofList m rows.flatten := by
  rw [parseTable, parseTrimmed_eq_ok_iff]
  refine and_congr_right fun _ => ?_
  constructor
  · rintro ⟨sss, hlayout, htable⟩
    obtain ⟨ts, hts, hnext, rfl⟩ := tableOfSpecs_eq_ok_iff.mp htable
    obtain ⟨rows, hrows, rfl⟩ := exists_readBlocks_iff.mp ⟨sss, hlayout, hts⟩
    have hlength : sss.length = rows.length := by
      rw [length_of_layoutFrom hlayout, hrows.length_eq]
    rw [hlength] at hnext
    exact ⟨rows, codeText_iff.mpr (forall₂_blockText_iff.mpr ⟨hrows, hnext⟩), rfl⟩
  · rintro ⟨rows, hcode, rfl⟩
    obtain ⟨hrows, hnext⟩ := forall₂_blockText_iff.mp (codeText_iff.mp hcode)
    obtain ⟨sss, hlayout, hts⟩ := exists_readBlocks_iff.mpr ⟨rows, hrows, rfl⟩
    have hlength : sss.length = rows.length := by
      rw [length_of_layoutFrom hlayout, hrows.length_eq]
    rw [← hlength] at hnext
    exact ⟨sss, hlayout, tableOfSpecs_eq_ok_iff.mpr ⟨_, hts, hnext, rfl⟩⟩

/-! ## tables -/

theorem CodeText.length_row {text : List Char} {rows : List (List Transition)}
    (h : CodeText m text rows) : ∀ row ∈ rows, row.length = m := by
  obtain ⟨_, _, _, hblocks⟩ := h
  intro row hrow
  obtain ⟨b, _, hb⟩ := exists_of_mem_right hblocks hrow
  exact hb.length_row

/-- the table of a code is the only one with the rows of its blocks -/
theorem parseTable_eq_ok_iff_denotes {code : String} {t : Table} :
    parseTable code m = .ok t ↔ (1 ≤ m ∧ m ≤ DecodeError.maxSymbols) ∧
      ∃ rows, CodeText m (Text.trim code.toList) rows ∧ Denotes t m rows := by
  rw [parseTable_eq_ok_iff]
  refine and_congr_right fun hbounds => exists_congr fun rows => and_congr_right fun hcode => ?_
  have hten : m ≤ 10 := hbounds.2
  have hrows := denotes_ofList_flatten hbounds.1 hcode.length_row
  constructor
  · rintro rfl
    exact hrows
  · intro ht
    exact ht.unique hrows (by omega)

/-! ## long codes -/

theorem mem_intercalate {α : Type} {sep : List α} {ls : List (List α)} {a : α}
    (h : a ∈ sep.intercalate ls) : a ∈ sep ∨ ∃ l ∈ ls, a ∈ l := by
  induction ls with
  | nil => cases h
  | cons l ls ih =>
    cases ls with
    | nil =>
      rw [List.intercalate_singleton] at h
      exact Or.inr ⟨l, List.mem_singleton_self l, h⟩
    | cons l' ls =>
      rw [List.intercalate_cons_cons, List.mem_append, List.mem_append] at h
      rcases h with (h | h) | h
      · exact Or.inr ⟨l, List.mem_cons_self, h⟩
      · exact Or.inl h
      · rcases ih h with h | ⟨k, hk, h⟩
        · exact Or.inl h
        · exact Or.inr ⟨k, List.mem_cons_of_mem l hk, h⟩

theorem CodeText.not_blank {text : List Char} {rows : List (List Transition)}
    (h : CodeText m text rows) : ∀ c ∈ text, Text.isBlank c = false := by
  obtain ⟨bs, _, rfl, hblocks⟩ := h
  intro c hc
  rcases mem_intercalate hc with hc | ⟨b, hb, hc⟩
  · rw [List.mem_singleton.mp hc]
    rfl
  · obtain ⟨row, _, hrow⟩ := exists_of_mem_left hblocks hb
    exact (hrow.plain c hc).2

/-- `n` blocks of placeholders -/
theorem codeText_placeholders (m : Nat) (hn : 1 ≤ n) :
    CodeText m (['_'].intercalate (List.replicate n (List.replicate m placeholder).flatten))
      (List.replicate n (List.replicate m Transition.undefined)) := by
  refine ⟨_, ?_, rfl, forall₂_replicate ?_ n⟩
  · intro hnil
    have hzero := List.replicate_eq_nil_iff _ |>.mp hnil
    omega
  · exact ⟨_, rfl, List.length_replicate, forall₂_replicate .placeholder m⟩

/-- a text of the language is a code without white space around it -/
theorem parseTable_of_codeText (hlow : 1 ≤ m) (hhigh : m ≤ DecodeError.maxSymbols)
    {text : List Char} {rows : List (List Transition)} (h : CodeText m text rows) :
    parseTable (String.ofList text) m = .ok (Table.ofList m rows.flatten) := by
  rw [parseTable_eq_ok_iff, String.toList_ofList, Text.trim_of_forall h.not_blank]
  exact ⟨⟨hlow, hhigh⟩, rows, h, rfl⟩

/-- a code is read exactly if it is one of the language, the table has the rows that the code
means, and there are codes of every number of blocks -/
theorem parseTable_accepts (code : String) (m : Nat) :
    (∀ t, parseTable code m = .ok t ↔ (1 ≤ m ∧ m ≤ 10) ∧
      ∃ rows, CodeText m (Text.trim code.toList) rows ∧ Denotes t m rows) ∧
    ((∃ t, parseTable code m = .ok t) ↔ (1 ≤ m ∧ m ≤ 10) ∧
      ∃ rows, CodeText m (Text.trim code.toList) rows) ∧
    (1 ≤ m → m ≤ 10 → ∀ n, 1 ≤ n → ∃ long t, parseTable long m = .ok t ∧ t.states = n) := by
  refine ⟨fun t => parseTable_eq_ok_iff_denotes, ?_, ?_⟩
  · constructor
    · rintro ⟨t, ht⟩
      obtain ⟨hbounds, rows, hcode, _⟩ := parseTable_eq_ok_iff.mp ht
      exact ⟨hbounds, rows, hcode⟩
    · rintro ⟨hbounds, rows, hcode⟩
      exact ⟨_, parseTable_eq_ok_iff.mpr ⟨hbounds, rows, hcode, rfl⟩⟩
  · intro hlow hhigh n hn
    have hcode := codeText_placeholders m hn
    refine ⟨_, _, parseTable_of_codeText hlow hhigh hcode, ?_⟩
    rw [(denotes_ofList_flatten hlow hcode.length_row).states_eq, List.length_replicate]

end Holdout.Code
