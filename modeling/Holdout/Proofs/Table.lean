import Holdout.Table

/-!
# The entries of a table

A table is read by state and symbol, and built from a list of rows laid end to end.

* `Table.get?_eq_getElem?`   where an entry stands in the list of transitions;
* `Table.isSome_get?_iff`    which entries there are;
* `Table.eq_of_get?`         a table is known by its entries;
* `Table.get?_eq_bind_row?`  the entry of a state stands in its row;
* `eq_of_flatten_eq`         lists laid end to end are told apart again by their widths;
* `Table.chunks_flatten`     cutting into pieces of one width undoes laying them end to end;
* `Denotes`                  a table has given rows, and no more than these;
* `denotes_ofList_flatten`, `Denotes.unique`   the rows laid end to end make the only such table;
* `Table.rowList`            the rows of a table, which make the table again;
* `Table.map_transition_entries`   the entries go through the same transitions, and so every
                             transition that is looked up is that of an entry.
-/

namespace Holdout

namespace Table

variable {t u : Table} {state : Nat} {symbol : Symbol}

/-! ## places -/

theorem place_lt_size {i j : Nat} (hi : i < t.states) (hj : j < t.symbols) :
    i * t.symbols + j < t.size := by
  have h : (i + 1) * t.symbols ≤ t.states * t.symbols := Nat.mul_le_mul_right t.symbols hi
  rw [Nat.succ_mul] at h
  rw [size_eq]
  omega

/-- the rows before that of a state -/
theorem pred_lt_states (hrow : t.hasRow state = true) : state - 1 < t.states := by
  obtain ⟨hlow, hhigh⟩ := hasRow_iff.mp hrow
  omega

theorem get?_eq_getElem? (hrow : t.hasRow state = true) (hsymbol : symbol.toNat < t.symbols) :
    t.get? state symbol = t.transitions[(state - 1) * t.symbols + symbol.toNat]? := by
  simp [get?, hrow, hsymbol]

theorem isSome_get?_iff : (t.get? state symbol).isSome = true ↔
    t.hasRow state = true ∧ symbol.toNat < t.symbols := by
  constructor
  · intro h
    unfold get? at h
    split at h
    · next hboth => simpa using hboth
    · cases h
  · rintro ⟨hrow, hsymbol⟩
    have hlt := place_lt_size (pred_lt_states hrow) hsymbol
    rw [get?_eq_getElem? hrow hsymbol, Array.getElem?_eq_getElem hlt]
    rfl

theorem hasRow_of_get? {e : Transition} (h : t.get? state symbol = some e) :
    t.hasRow state = true :=
  (isSome_get?_iff.mp (Option.isSome_of_eq_some h)).1

theorem hasRow_of_lt_size {i : Nat} (hi : i < t.size) : t.hasRow (i / t.symbols + 1) = true := by
  rw [size_eq, Nat.mul_comm] at hi
  exact hasRow_iff.mpr ⟨Nat.succ_pos _, Nat.div_lt_of_lt_mul hi⟩

theorem toNat_column (hbyte : t.symbols ≤ 256) (i : Nat) :
    (UInt8.ofNat (i % t.symbols)).toNat = i % t.symbols := by
  have hcolumn := Nat.mod_lt i t.symbols_pos
  exact UInt8.toNat_ofNat_of_lt' (show i % t.symbols < 256 by omega)

theorem column_lt (hbyte : t.symbols ≤ 256) (i : Nat) :
    (UInt8.ofNat (i % t.symbols)).toNat < t.symbols := by
  rw [toNat_column hbyte]
  exact Nat.mod_lt i t.symbols_pos

/-- the row that starts after `i` full rows is the next piece of the list of transitions -/
theorem rowAt_eq_take_drop (t : Table) (i : Nat) :
    t.rowAt i = (t.transitions.toList.drop (i * t.symbols)).take t.symbols := by
  rw [rowAt, Array.toList_extract, List.extract_eq_take_drop, Nat.add_sub_cancel_left]

theorem length_rowAt {i : Nat} (hi : i < t.states) : (t.rowAt i).length = t.symbols := by
  have hsize : t.transitions.toList.length = t.states * t.symbols := size_eq t
  have hlast : (i + 1) * t.symbols ≤ t.states * t.symbols := Nat.mul_le_mul_right t.symbols hi
  rw [Nat.succ_mul] at hlast
  rw [rowAt_eq_take_drop, List.length_take, List.length_drop, hsize]
  omega

theorem get?_eq_bind_row? (t : Table) (state : Nat) (symbol : Symbol) :
    t.get? state symbol = (t.row? state).bind fun row => row[symbol.toNat]? := by
  by_cases hrow : t.hasRow state = true
  · rw [row?, if_pos hrow, Option.bind_some, rowAt_eq_take_drop, List.getElem?_take]
    by_cases hsymbol : symbol.toNat < t.symbols
    · rw [if_pos hsymbol, get?_eq_getElem? hrow hsymbol, List.getElem?_drop, Array.getElem?_toList]
    · rw [if_neg hsymbol]
      simp [get?, hsymbol]
  · rw [row?, if_neg hrow, Option.bind_none]
    simp [get?, hrow]

/-- entry `i` stands in row `i / symbols` and column `i % symbols` -/
theorem getElem?_eq_get? {i : Nat} (hi : i < t.size) (hbyte : t.symbols ≤ 256) :
    t.transitions[i]? = t.get? (i / t.symbols + 1) (UInt8.ofNat (i % t.symbols)) := by
  rw [get?_eq_getElem? (hasRow_of_lt_size hi) (column_lt hbyte i), toNat_column hbyte,
    Nat.add_sub_cancel, Nat.mul_comm, Nat.div_add_mod]

theorem eq_of_transitions (hsymbols : t.symbols = u.symbols)
    (h : t.transitions = u.transitions) : t = u := by
  obtain ⟨symbols, transitions, _, _⟩ := t
  obtain ⟨symbols', transitions', _, _⟩ := u
  simp only at hsymbols h
  subst hsymbols h
  rfl

theorem eq_of_get? (hsymbols : t.symbols = u.symbols) (hbyte : t.symbols ≤ 256)
    (hstates : t.states = u.states)
    (h : ∀ (state : Nat) (symbol : Symbol), t.hasRow state = true → symbol.toNat < t.symbols →
      t.get? state symbol = u.get? state symbol) : t = u := by
  have hsize : t.size = u.size := by
    rw [size_eq, size_eq, hsymbols, hstates]
  apply eq_of_transitions hsymbols
  apply Array.ext_getElem?
  intro i
  rcases Nat.lt_or_ge i t.size with hi | hi
  · rw [getElem?_eq_get? hi hbyte, h _ _ (hasRow_of_lt_size hi) (column_lt hbyte i), hsymbols,
      getElem?_eq_get? (by omega) (by omega)]
  · rw [Array.getElem?_eq_none hi, Array.getElem?_eq_none (show u.size ≤ i by omega)]

end Table

/-! ## rows laid end to end -/

section
variable {α : Type} {rows : List (List α)} {width : Nat}

theorem length_flatten_of_width (h : ∀ row ∈ rows, row.length = width) :
    rows.flatten.length = rows.length * width := by
  induction rows with
  | nil => simp
  | cons row rows ih =>
    rw [List.flatten_cons, List.length_append, h row List.mem_cons_self,
      ih fun r hr => h r (List.mem_cons_of_mem _ hr), List.length_cons, Nat.succ_mul]
    omega

theorem mul_width_le_length_flatten (h : ∀ row ∈ rows, width ≤ row.length) :
    rows.length * width ≤ rows.flatten.length := by
  induction rows with
  | nil => simp
  | cons row rows ih =>
    have hrow := h row List.mem_cons_self
    have hrows := ih fun r hr => h r (List.mem_cons_of_mem _ hr)
    rw [List.flatten_cons, List.length_append, List.length_cons, Nat.succ_mul]
    omega

/-- pieces of one width, cut from the left end -/
theorem flatten_map_take_drop (l : List α) (width n : Nat) :
    ((List.range n).map fun i => (l.drop (i * width)).take width).flatten =
      l.take (n * width) := by
  induction n with
  | zero => simp
  | succ n ih =>
    rw [List.range_succ, List.map_append, List.flatten_append, ih, List.map_singleton,
      List.flatten_singleton, Nat.succ_mul, List.take_add]

theorem getElem?_flatten_of_width (h : ∀ row ∈ rows, row.length = width) {i j : Nat}
    (hj : j < width) : rows.flatten[i * width + j]? = rows[i]?.bind fun row => row[j]? := by
  induction rows generalizing i with
  | nil => simp
  | cons row rows ih =>
    have hrow := h row List.mem_cons_self
    rw [List.flatten_cons]
    cases i with
    | zero =>
      rw [List.getElem?_append_left (by omega)]
      simp
    | succ i =>
      rw [List.getElem?_append_right (by rw [Nat.succ_mul]; omega),
        show (i + 1) * width + j - row.length = i * width + j by rw [Nat.succ_mul]; omega,
        ih fun r hr => h r (List.mem_cons_of_mem _ hr)]
      rfl

end

/-- lists that are none shorter than a width, laid end to end, are told apart by it if they are no
longer altogether -/
theorem eq_of_flatten_eq {α : Type} {width : Nat} {rows pieces : List (List α)}
    (h : rows.flatten = pieces.flatten) (hlength : rows.length = pieces.length)
    (hrows : ∀ row ∈ rows, width ≤ row.length)
    (hpieces : ∀ piece ∈ pieces, piece.length = width) : rows = pieces := by
  induction rows generalizing pieces with
  | nil =>
    rw [List.length_nil] at hlength
    exact (List.length_eq_zero_iff.mp hlength.symm).symm
  | cons row rows ih =>
    cases pieces with
    | nil => cases hlength
    | cons piece pieces =>
      rw [List.length_cons, List.length_cons, Nat.succ_inj] at hlength
      rw [List.flatten_cons, List.flatten_cons] at h
      have hrow := hrows row List.mem_cons_self
      have hpiece := hpieces piece List.mem_cons_self
      have hrows' : ∀ r ∈ rows, width ≤ r.length := fun r hr =>
        hrows r (List.mem_cons_of_mem row hr)
      have hpieces' : ∀ p ∈ pieces, p.length = width := fun p hp =>
        hpieces p (List.mem_cons_of_mem piece hp)
      -- the lists after the first are long enough, so the first has nothing to spare
      have hrest : rows.length * width ≤ rows.flatten.length := mul_width_le_length_flatten hrows'
      have htotal := congrArg List.length h
      rw [List.length_append, List.length_append, length_flatten_of_width hpieces', hpiece,
        ← hlength] at htotal
      obtain ⟨hfirst, hlater⟩ := List.append_inj h (by omega)
      rw [hfirst, ih hlater hlength hrows' hpieces']

/-- the table has as many states as there are rows, and its entries are theirs -/
structure Denotes (t : Table) (symbols : Nat) (rows : List (List Transition)) : Prop where
  symbols_eq : t.symbols = symbols
  states_eq : t.states = rows.length
  size_eq : t.size = rows.length * symbols
  get?_eq : ∀ (state : Nat) (symbol : Symbol), 1 ≤ state → state ≤ rows.length →
    symbol.toNat < symbols → ∃ row entry, rows[state - 1]? = some row ∧
      row[symbol.toNat]? = some entry ∧ t.get? state symbol = some entry

section
variable {symbols : Nat} {rows : List (List Transition)}

/-- full rows are not filled up -/
theorem transitions_ofList_flatten (hpos : 1 ≤ symbols)
    (h : ∀ row ∈ rows, row.length = symbols) :
    (Table.ofList symbols rows.flatten).transitions = rows.flatten.toArray := by
  have hlacking : Table.lacking (max symbols 1) rows.flatten.length = 0 := by
    rw [Nat.max_eq_left hpos, length_flatten_of_width h, Table.lacking, Nat.mul_mod_left,
      Nat.sub_zero, Nat.mod_self]
  show (rows.flatten ++ List.replicate _ _).toArray = _
  rw [hlacking, List.replicate_zero, List.append_nil]

theorem denotes_ofList_flatten (hpos : 1 ≤ symbols) (h : ∀ row ∈ rows, row.length = symbols) :
    Denotes (Table.ofList symbols rows.flatten) symbols rows := by
  have hlength := length_flatten_of_width h
  have hsymbols : (Table.ofList symbols rows.flatten).symbols = symbols := by
    rw [Table.symbols_ofList]
    omega
  have htransitions := transitions_ofList_flatten hpos h
  have hsize : (Table.ofList symbols rows.flatten).size = rows.length * symbols := by
    rw [Table.size, htransitions, List.size_toArray, hlength]
  have hstates : (Table.ofList symbols rows.flatten).states = rows.length := by
    rw [Table.states, ← Table.size, hsize, hsymbols, Nat.mul_div_cancel _ hpos]
  refine ⟨hsymbols, hstates, hsize, ?_⟩
  intro state symbol h1 hle hsymbol
  have hlt : state - 1 < rows.length := by omega
  obtain ⟨row, hrow⟩ : ∃ row, rows[state - 1]? = some row :=
    ⟨_, List.getElem?_eq_getElem hlt⟩
  have hwidth := h row (List.mem_of_getElem? hrow)
  have hcolumn : symbol.toNat < row.length := by omega
  obtain ⟨entry, hentry⟩ : ∃ entry, row[symbol.toNat]? = some entry :=
    ⟨_, List.getElem?_eq_getElem hcolumn⟩
  refine ⟨row, entry, hrow, hentry, ?_⟩
  have hhas : (Table.ofList symbols rows.flatten).hasRow state = true := by
    rw [Table.hasRow_iff, hstates]
    exact ⟨h1, hle⟩
  rw [Table.get?_eq_getElem? hhas (by omega), htransitions, hsymbols, List.getElem?_toArray,
    getElem?_flatten_of_width h hsymbol, hrow, Option.bind_some, hentry]

theorem Denotes.unique {t u : Table} (ht : Denotes t symbols rows) (hu : Denotes u symbols rows)
    (hbyte : symbols ≤ 256) : t = u := by
  apply Table.eq_of_get?
  · rw [ht.symbols_eq, hu.symbols_eq]
  · rw [ht.symbols_eq]
    exact hbyte
  · rw [ht.states_eq, hu.states_eq]
  · intro state symbol hrow hsymbol
    rw [Table.hasRow_iff, ht.states_eq] at hrow
    rw [ht.symbols_eq] at hsymbol
    obtain ⟨row, entry, hr, he, hget⟩ := ht.get?_eq state symbol hrow.1 hrow.2 hsymbol
    obtain ⟨row', entry', hr', he', hget'⟩ := hu.get?_eq state symbol hrow.1 hrow.2 hsymbol
    rw [hr] at hr'
    cases hr'
    rw [he] at he'
    cases he'
    rw [hget, hget']

end

/-! ## the rows of a table -/

namespace Table

/-- the first piece takes as much as there is room for, and the others are cut from the rest -/
theorem cut_eq {α : Type} (width room : Nat) (xs : List α) :
    cut width room xs = (xs.take room, chunks width (xs.drop room)) := by
  induction xs generalizing room with
  | nil => simp [cut, chunks]
  | cons x xs ih =>
    cases room with
    | zero => rfl
    | succ room => rw [cut, ih room, List.take_succ_cons, List.drop_succ_cons]

theorem chunks_append {α : Type} {width : Nat} (hpos : 0 < width) {piece : List α}
    (hpiece : piece.length = width) (xs : List α) :
    chunks width (piece ++ xs) = piece :: chunks width xs := by
  cases piece with
  | nil => exact absurd hpiece (Nat.ne_of_lt hpos)
  | cons x piece =>
    have hrest : piece.length = width - 1 := by
      rw [← hpiece, List.length_cons, Nat.add_sub_cancel]
    rw [List.cons_append, chunks, cut, cut_eq, List.take_left' hrest, List.drop_left' hrest]

theorem chunks_flatten {α : Type} {width : Nat} (hpos : 0 < width) {rows : List (List α)}
    (h : ∀ row ∈ rows, row.length = width) : chunks width rows.flatten = rows := by
  induction rows with
  | nil => rfl
  | cons row rows ih =>
    rw [List.flatten_cons, chunks_append hpos (h row List.mem_cons_self),
      ih fun r hr => h r (List.mem_cons_of_mem row hr)]

/-- the transitions are the rows laid end to end -/
theorem flatten_map_rowAt (t : Table) :
    ((List.range t.states).map t.rowAt).flatten = t.transitions.toList := by
  have hsize : t.transitions.toList.length = t.states * t.symbols := size_eq t
  rw [List.map_congr_left fun i _ => rowAt_eq_take_drop t i, flatten_map_take_drop, ← hsize,
    List.take_length]

/-- the rows in order, without their states -/
def rowList (t : Table) : List (List Transition) := t.rows.map Prod.snd

theorem rowList_eq_chunks (t : Table) : t.rowList = chunks t.symbols t.transitions.toList := by
  rw [rowList, rows, List.map_map]
  exact List.zipIdx_map_fst 0 _

/-- the pieces that the transitions are cut into are the slices of the states -/
theorem rowList_eq (t : Table) : t.rowList = (List.range t.states).map t.rowAt := by
  rw [rowList_eq_chunks, ← flatten_map_rowAt]
  refine chunks_flatten t.symbols_pos fun row hrow => ?_
  obtain ⟨i, hi, rfl⟩ := List.mem_map.mp hrow
  exact length_rowAt (List.mem_range.mp hi)

theorem rows_eq (t : Table) : t.rows = (List.range t.states).map fun i => (i + 1, t.rowAt i) := by
  apply List.ext_getElem?
  intro i
  rw [rows, ← rowList_eq_chunks, rowList_eq, List.getElem?_map, List.getElem?_zipIdx,
    List.getElem?_map, List.getElem?_map]
  rcases Nat.lt_or_ge i t.states with hi | hi
  · rw [List.getElem?_range hi]
    simp
  · rw [List.getElem?_eq_none (by rw [List.length_range]; exact hi)]
    rfl

theorem length_rowList (t : Table) : t.rowList.length = t.states := by
  rw [rowList_eq, List.length_map, List.length_range]

theorem length_of_mem_rowList {t : Table} {row : List Transition} (h : row ∈ t.rowList) :
    row.length = t.symbols := by
  rw [rowList_eq] at h
  obtain ⟨i, hi, rfl⟩ := List.mem_map.mp h
  exact length_rowAt (List.mem_range.mp hi)

theorem flatten_rowList (t : Table) : t.rowList.flatten = t.transitions.toList := by
  rw [rowList_eq, flatten_map_rowAt]

theorem forall_mem_rowList_iff {t : Table} {p : Transition → Prop} :
    (∀ row ∈ t.rowList, ∀ e ∈ row, p e) ↔ ∀ e ∈ t.transitions, p e := by
  rw [← List.forall_mem_flatten, flatten_rowList]
  simp only [Array.mem_toList_iff]

theorem ofList_flatten_rowList (t : Table) : ofList t.symbols t.rowList.flatten = t := by
  have hpos : 1 ≤ t.symbols := t.symbols_pos
  have hwidth : ∀ row ∈ t.rowList, row.length = t.symbols := fun _ => length_of_mem_rowList
  apply eq_of_transitions
  · rw [symbols_ofList]
    omega
  · rw [transitions_ofList_flatten hpos hwidth, flatten_rowList, Array.toArray_toList]

theorem rowList_ofList_flatten {symbols : Nat} {rows : List (List Transition)}
    (hpos : 1 ≤ symbols) (h : ∀ row ∈ rows, row.length = symbols) :
    (ofList symbols rows.flatten).rowList = rows := by
  rw [rowList_eq_chunks, transitions_ofList_flatten hpos h,
    (denotes_ofList_flatten hpos h).symbols_eq]
  exact chunks_flatten hpos h

/-! ## the entries of a table -/

theorem map_transition_rowEntries (state : Nat) (row : List Transition) :
    (rowEntries state row).map Entry.transition = row := by
  rw [rowEntries, List.map_map]
  exact List.zipIdx_map_fst 0 row

/-- the entries, row after row, are the transitions of the table -/
theorem map_transition_entries (t : Table) :
    t.entries.map Entry.transition = t.transitions.toList := by
  rw [entries, List.map_flatMap, ← flatten_rowList, rowList, List.flatMap_def]
  simp only [map_transition_rowEntries]

theorem exists_entry_of_row? {t : Table} {state : Nat} {row : List Transition} {e : Transition}
    (h : t.row? state = some row) (he : e ∈ row) : ∃ entry ∈ t.entries, entry.transition = e := by
  obtain ⟨hrow, heq⟩ := Option.ite_some_none_eq_some.mp h
  have hmem : row ∈ t.rowList := by
    rw [rowList_eq, ← heq]
    exact List.mem_map_of_mem (List.mem_range.mpr (pred_lt_states hrow))
  have hflat : e ∈ t.rowList.flatten := List.mem_flatten_of_mem hmem he
  rw [flatten_rowList, ← map_transition_entries] at hflat
  exact List.mem_map.mp hflat

theorem exists_entry_of_get? {t : Table} {state : Nat} {symbol : Symbol} {e : Transition}
    (h : t.get? state symbol = some e) : ∃ entry ∈ t.entries, entry.transition = e := by
  rw [get?_eq_bind_row?] at h
  obtain ⟨row, hrow, he⟩ := Option.bind_eq_some_iff.mp h
  exact exists_entry_of_row? hrow (List.mem_of_getElem? he)

end Table

end Holdout
