import Holdout.Proofs.Table
import Mathlib.Algebra.Order.Floor.Div

/-!
# The views of a table

A table is one list of transitions, and it is read in four ways: by state and symbol, by state, row
after row, and entry after entry.  All of them show the same transitions.  The table of a list shows
the list, row after row, and `Transition.undefined` past its end.

* `Table.shown`           the transition at a place of a table, counted row after row;
* `Table.states_ofList`, `Table.shown_ofList`   the rows and the places of the table of a list;
* `Table.get?_eq_some_iff`, `Table.rowAt_eq_shown`, `Table.entries_eq_map_entryAt`   each view, place
                          by place;
* `Table.mem_entries_iff`, `Table.nodup_places_iff`   the entries are the look-ups, each of them once,
                          as long as a byte can count the columns;
* `Table.ViewsAgree`, `Table.viewsAgree`   what it means that the views agree, and that they do;
* `Table.views_of_list_agree`   the same for the table of a list, in terms of the list.
-/

namespace Holdout

/-- the numbers below a product, a piece of one width after the other -/
theorem range_mul (rows width : Nat) : List.range (rows * width) =
    (List.range rows).flatMap fun i => (List.range width).map fun j => i * width + j := by
  induction rows with
  | zero => rw [Nat.zero_mul, List.range_zero, List.flatMap_nil]
  | succ rows ih =>
    rw [Nat.succ_mul, List.range_add, ih, List.range_succ, List.flatMap_append,
      List.flatMap_singleton]

namespace Table

variable {t : Table} {symbols state : Nat} {symbol : Symbol}

/-- the transition at a place, counted row after row; past the end nothing is defined -/
def shown (t : Table) (place : Nat) : Transition :=
  t.transitions.getD place Transition.undefined

theorem getElem?_transitions {i : Nat} (hi : i < t.size) :
    t.transitions[i]? = some (t.shown i) := by
  have hlt : i < t.transitions.size := hi
  simp [shown, hlt]

/-! ## the table of a list -/

/-- no more is lacking than the rest of one row -/
theorem add_lacking (hpos : 0 < symbols) (count : Nat) :
    count + lacking symbols count = count ⌈/⌉ symbols * symbols := by
  have hfew : lacking symbols count < symbols := Nat.mod_lt _ hpos
  obtain ⟨rows, hrows⟩ := Nat.dvd_of_mod_eq_zero (add_lacking_mod symbols count hpos)
  have hceil : count ⌈/⌉ symbols = rows := by
    rw [Nat.ceilDiv_eq_add_pred_div]
    apply Nat.div_eq_of_lt_le
    · rw [Nat.mul_comm]
      omega
    · rw [Nat.succ_mul, Nat.mul_comm]
      omega
  rw [hrows, hceil, Nat.mul_comm]

theorem size_ofList (symbols : Nat) (ts : List Transition) :
    (ofList symbols ts).size = ts.length ⌈/⌉ max symbols 1 * max symbols 1 := by
  have hpos : 0 < max symbols 1 := (ofList symbols ts).symbols_pos
  rw [← add_lacking hpos ts.length]
  simp [size, ofList]

theorem states_ofList (symbols : Nat) (ts : List Transition) :
    (ofList symbols ts).states = ts.length ⌈/⌉ max symbols 1 := by
  rw [states, ← size, size_ofList, symbols_ofList]
  exact Nat.mul_div_cancel _ (by omega)

/-- the last row is filled up with what stands past the end of the list anyway -/
theorem shown_ofList (symbols : Nat) (ts : List Transition) :
    (ofList symbols ts).shown = fun place => ts.getD place Transition.undefined := by
  funext i
  have hlist : (ofList symbols ts).transitions.toList = ts ++
      List.replicate (lacking (max symbols 1) ts.length) Transition.undefined := rfl
  rw [shown, Array.getD_eq_getD_getElem?, List.getD_eq_getElem?_getD, ← Array.getElem?_toList, hlist]
  rcases Nat.lt_or_ge i ts.length with hi | hi
  · rw [List.getElem?_append_left hi]
  · rw [List.getElem?_append_right hi, List.getElem?_eq_none hi, List.getElem?_replicate]
    split <;> rfl

/-! ## look-ups and rows -/

theorem get?_eq_some_iff {e : Transition} : t.get? state symbol = some e ↔
    t.hasRow state = true ∧ symbol.toNat < t.symbols ∧
      t.shown ((state - 1) * t.symbols + symbol.toNat) = e := by
  have hfound : ∀ (hrow : t.hasRow state = true) (hsymbol : symbol.toNat < t.symbols),
      t.get? state symbol = some (t.shown ((state - 1) * t.symbols + symbol.toNat)) := by
    intro hrow hsymbol
    rw [get?_eq_getElem? hrow hsymbol,
      getElem?_transitions (place_lt_size (pred_lt_states hrow) hsymbol)]
  constructor
  · intro h
    obtain ⟨hrow, hsymbol⟩ := isSome_get?_iff.mp (Option.isSome_of_eq_some h)
    rw [hfound hrow hsymbol, Option.some_inj] at h
    exact ⟨hrow, hsymbol, h⟩
  · rintro ⟨hrow, hsymbol, rfl⟩
    exact hfound hrow hsymbol

theorem rowAt_eq_shown {i : Nat} (hi : i < t.states) :
    t.rowAt i = (List.range t.symbols).map fun j => t.shown (i * t.symbols + j) := by
  apply List.ext_getElem?
  intro j
  rw [rowAt_eq_take_drop, List.getElem?_take, List.getElem?_map]
  split
  · next hj =>
    rw [List.getElem?_drop, Array.getElem?_toList, getElem?_transitions (place_lt_size hi hj),
      List.getElem?_range hj]
    rfl
  · next hj =>
    rw [List.getElem?_eq_none (by rw [List.length_range]; omega)]
    rfl

theorem row?_eq_some_iff {row : List Transition} :
    t.row? state = some row ↔ t.hasRow state = true ∧ t.rowAt (state - 1) = row := by
  rw [row?, Option.ite_none_right_eq_some, Option.some_inj]

/-- going through the rows is asking for the row of each state in turn -/
theorem map_rows_eq_row? (t : Table) : t.rows.map (Prod.map id some) =
    (List.range' 1 t.states).map fun state => (state, t.row? state) := by
  rw [rows_eq, List.map_map, List.range'_eq_map_range, List.map_map]
  apply List.map_congr_left
  intro i hi
  have hrow : t.hasRow (i + 1) = true := hasRow_iff.mpr ⟨Nat.succ_pos i, List.mem_range.mp hi⟩
  show (i + 1, some (t.rowAt i)) = (1 + i, t.row? (1 + i))
  rw [Nat.add_comm 1 i, row?, if_pos hrow, Nat.add_sub_cancel]

theorem flatten_rowList_eq_shown (t : Table) :
    t.rowList.flatten = (List.range t.size).map t.shown := by
  rw [rowList_eq, size_eq, range_mul, List.map_flatMap, List.flatMap_def]
  refine congrArg List.flatten (List.map_congr_left fun i hi => ?_)
  rw [rowAt_eq_shown (List.mem_range.mp hi), List.map_map]
  rfl

/-! ## entries -/

/-- the entry at a place -/
def entryAt (t : Table) (place : Nat) : Entry :=
  ⟨place / t.symbols + 1, UInt8.ofNat (place % t.symbols), t.shown place⟩

theorem entryAt_add (t : Table) (i : Nat) {j : Nat} (hj : j < t.symbols) :
    t.entryAt (i * t.symbols + j) = ⟨i + 1, UInt8.ofNat j, t.shown (i * t.symbols + j)⟩ := by
  have hrow : (i * t.symbols + j) / t.symbols = i := by
    rw [Nat.mul_comm, Nat.mul_add_div t.symbols_pos, Nat.div_eq_of_lt hj, Nat.add_zero]
  have hcolumn : (i * t.symbols + j) % t.symbols = j := by
    rw [Nat.mul_comm, Nat.mul_add_mod, Nat.mod_eq_of_lt hj]
  rw [entryAt, hrow, hcolumn]

theorem getElem?_rowEntries (state : Nat) (row : List Transition) (j : Nat) :
    (rowEntries state row)[j]? = row[j]?.map fun e => ⟨state, UInt8.ofNat j, e⟩ := by
  rw [rowEntries, List.getElem?_map, List.getElem?_zipIdx, Option.map_map, Nat.zero_add]
  rfl

theorem rowEntries_rowAt {i : Nat} (hi : i < t.states) : rowEntries (i + 1) (t.rowAt i) =
    (List.range t.symbols).map fun j => t.entryAt (i * t.symbols + j) := by
  apply List.ext_getElem?
  intro j
  rw [getElem?_rowEntries, rowAt_eq_shown hi, List.getElem?_map, List.getElem?_map, Option.map_map]
  rcases Nat.lt_or_ge j t.symbols with hj | hj
  · rw [List.getElem?_range hj, Option.map_some, Option.map_some, entryAt_add t i hj]
    rfl
  · rw [List.getElem?_eq_none (by rw [List.length_range]; exact hj)]
    rfl

/-- the entries are those of all places, in order -/
theorem entries_eq_map_entryAt (t : Table) : t.entries = (List.range t.size).map t.entryAt := by
  have hrows : t.entries = (List.range t.states).flatMap fun i => rowEntries (i + 1) (t.rowAt i) := by
    rw [entries, rows_eq, List.flatMap_map]
  rw [hrows, size_eq, range_mul, List.map_flatMap]
  apply List.flatMap_congr
  intro i hi
  rw [rowEntries_rowAt (List.mem_range.mp hi), List.map_map]
  rfl

theorem mem_entries_iff (hbyte : t.symbols ≤ 256) {e : Entry} :
    e ∈ t.entries ↔ t.get? e.state e.symbol = some e.transition := by
  rw [entries_eq_map_entryAt, List.mem_map]
  constructor
  · rintro ⟨i, hi, rfl⟩
    have hplace : i < t.size := List.mem_range.mp hi
    show t.get? (i / t.symbols + 1) (UInt8.ofNat (i % t.symbols)) = some (t.shown i)
    rw [← getElem?_eq_get? hplace hbyte, getElem?_transitions hplace]
  · intro h
    obtain ⟨hrow, hsymbol, hshown⟩ := get?_eq_some_iff.mp h
    refine ⟨_, List.mem_range.mpr (place_lt_size (pred_lt_states hrow) hsymbol), ?_⟩
    rw [entryAt_add t _ hsymbol, hshown, UInt8.ofNat_toNat,
      Nat.sub_add_cancel (hasRow_iff.mp hrow).1]

/-- the state and the column that an entry is listed under -/
def Entry.place (e : Entry) : Nat × Symbol := (e.state, e.symbol)

theorem entryAt_place_inj (hbyte : t.symbols ≤ 256) {i k : Nat}
    (h : (t.entryAt i).place = (t.entryAt k).place) : i = k := by
  obtain ⟨hstate, hsymbol⟩ := Prod.ext_iff.mp h
  have hrow : i / t.symbols = k / t.symbols := Nat.succ_injective hstate
  have hcolumn : i % t.symbols = k % t.symbols := by
    rw [← toNat_column hbyte i, ← toNat_column hbyte k]
    exact congrArg UInt8.toNat hsymbol
  rw [← Nat.div_add_mod i t.symbols, ← Nat.div_add_mod k t.symbols, hrow, hcolumn]

/-- the columns `0` and `256` of a row come out as one byte -/
theorem entryAt_place_wraps (hwide : 256 < t.symbols) :
    (t.entryAt 0).place = (t.entryAt 256).place := by
  simp [Entry.place, entryAt, Nat.div_eq_of_lt hwide, Nat.mod_eq_of_lt hwide]

/-- no two entries are listed under one state and column, exactly as long as a byte can count the
columns -/
theorem nodup_places_iff (t : Table) :
    (t.entries.map Entry.place).Nodup ↔ t.symbols ≤ 256 ∨ t.states = 0 := by
  rw [entries_eq_map_entryAt, List.map_map]
  constructor
  · intro h
    by_contra hwide
    have hsize : 0 * t.symbols + 256 < t.size := place_lt_size (by omega) (by omega)
    have hsame : 0 = 256 := List.inj_on_of_nodup_map h (List.mem_range.mpr (by omega))
      (List.mem_range.mpr (by omega)) (entryAt_place_wraps (by omega))
    cases hsame
  · rintro (hbyte | hnone)
    · exact List.nodup_range.map_on fun i _ k _ h => entryAt_place_inj hbyte h
    · rw [size_eq, hnone, Nat.zero_mul]
      exact List.nodup_nil

/-! ## all views -/

/-- the views of a table show `rows` rows of `width` transitions each, and place by place those that
`shown` has -/
structure ViewsAgree (t : Table) (width rows : Nat) (shown : Nat → Transition) : Prop where
  symbols_eq : t.symbols = width
  states_eq : t.states = rows
  size_eq : t.size = rows * width
  /-- the states with a row are looked up on the symbols of the alphabet -/
  get?_eq_some_iff : ∀ (state : Nat) (symbol : Symbol) (e : Transition),
    t.get? state symbol = some e ↔ (1 ≤ state ∧ state ≤ rows) ∧ symbol.toNat < width ∧
      shown ((state - 1) * width + symbol.toNat) = e
  row?_eq_some_iff : ∀ (state : Nat) (row : List Transition),
    t.row? state = some row ↔ (1 ≤ state ∧ state ≤ rows) ∧
      ((List.range width).map fun column => shown ((state - 1) * width + column)) = row
  /-- a row is full and has the look-ups of its state -/
  row?_get? : ∀ (state : Nat) (row : List Transition), t.row? state = some row →
    row.length = width ∧ ∀ symbol : Symbol, row[symbol.toNat]? = t.get? state symbol
  /-- the rows are those of the states with a row, in order -/
  rows_eq : t.rows.map (Prod.map id some) =
    (List.range' 1 rows).map fun state => (state, t.row? state)
  /-- the rows laid end to end go through all places -/
  flatten_rows : t.rowList.flatten = (List.range (rows * width)).map shown
  /-- the entries go through all places and count the columns in a byte -/
  entries_eq : t.entries = (List.range (rows * width)).map fun place =>
    ⟨place / width + 1, UInt8.ofNat (place % width % 256), shown place⟩
  /-- as long as a byte can count the columns, every look-up is an entry and no other is -/
  mem_entries_iff : width ≤ 256 → ∀ e : Entry,
    e ∈ t.entries ↔ t.get? e.state e.symbol = some e.transition
  nodup_places : width ≤ 256 → (t.entries.map Entry.place).Nodup

theorem viewsAgree (t : Table) : ViewsAgree t t.symbols t.states t.shown where
  symbols_eq := rfl
  states_eq := rfl
  size_eq := size_eq t
  get?_eq_some_iff := by
    intro state symbol e
    rw [← hasRow_iff]
    exact get?_eq_some_iff
  row?_eq_some_iff := by
    intro state row
    rw [row?_eq_some_iff, ← hasRow_iff]
    apply and_congr_right
    intro hrow
    rw [rowAt_eq_shown (pred_lt_states hrow)]
  row?_get? := by
    intro state row h
    obtain ⟨hrow, rfl⟩ := row?_eq_some_iff.mp h
    refine ⟨length_rowAt (pred_lt_states hrow), fun symbol => ?_⟩
    rw [get?_eq_bind_row?, h, Option.bind_some]
  rows_eq := map_rows_eq_row? t
  flatten_rows := by
    rw [← size_eq]
    exact flatten_rowList_eq_shown t
  entries_eq := by
    rw [entries_eq_map_entryAt, size_eq]
    apply List.map_congr_left
    intro place _
    rw [entryAt, show UInt8.ofNat (place % t.symbols % 256) = UInt8.ofNat (place % t.symbols) from
      UInt8.ofNat_mod_size]
  mem_entries_iff := fun hbyte _ => mem_entries_iff hbyte
  nodup_places := fun hbyte => t.nodup_places_iff.mpr (.inl hbyte)

/-- **All views of a table agree.**  The table of a list over an alphabet, an empty one counting as
one symbol, has as many rows as it takes to hold the list.  The look-ups, the rows and the entries
show the list, row after row, and undefined transitions past its end; and if a byte can count the
columns, the entries are the look-ups, each of them once. -/
theorem views_of_list_agree (symbols : Nat) (ts : List Transition) :
    ViewsAgree (ofList symbols ts) (max symbols 1) (ts.length ⌈/⌉ max symbols 1)
      (fun place => ts.getD place Transition.undefined) := by
  have hagree := viewsAgree (ofList symbols ts)
  rw [symbols_ofList, states_ofList, shown_ofList] at hagree
  exact hagree

/-- a list that breaks off in a row -/
example : (ofList 2 [⟨1, .left, 1⟩]).entries =
    [⟨1, 0, ⟨1, .left, 1⟩⟩, ⟨1, 1, Transition.undefined⟩] := by decide

end Table

end Holdout
