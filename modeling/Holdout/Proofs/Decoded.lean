import Holdout.Catalog
import Holdout.Proofs.Code.Accepts

/-!
# Decoded machines

A machine comes from a code by one of several ways, and its table was read from a code in each.

* `Table.Closed`              every entry writes a symbol of the table and goes to a state of it;
* `closed_of_parseTable`      a table that was read from a code is closed;
* `Decoded`                   the ways to come by a machine from a code;
* `Decoded.exists_decodeOn`   however it was come by, it is the machine of a code on its own blank.
-/

namespace Holdout

/-! ## closed tables -/

/-- every entry writes a symbol of the table and goes to a state of it -/
structure Table.Closed (t : Table) : Prop where
  states_pos : 1 ≤ t.states
  write_lt : ∀ {state : Nat} {symbol : Symbol} {entry : Transition},
    t.get? state symbol = some entry → entry.write.toNat < t.symbols
  next_le : ∀ {state : Nat} {symbol : Symbol} {entry : Transition},
    t.get? state symbol = some entry → entry.next ≤ t.states

theorem closed_of_parseTable {code : String} {symbols : Nat} {t : Table}
    (h : Code.parseTable code symbols = .ok t) : t.Closed := by
  obtain ⟨⟨hlow, _⟩, rows, ⟨blocks, hne, _, hblocks⟩, ht⟩ :=
    Code.parseTable_eq_ok_iff_denotes.mp h
  have hentry : ∀ {state : Nat} {symbol : Symbol} {entry : Transition},
      t.get? state symbol = some entry →
        entry.write.toNat < symbols ∧ entry.next ≤ rows.length := by
    intro state symbol entry hget
    have hsome : (t.get? state symbol).isSome = true := by
      rw [hget]
      rfl
    obtain ⟨hrow, hsymbol⟩ := Table.isSome_get?_iff.mp hsome
    rw [Table.hasRow_iff, ht.states_eq] at hrow
    rw [ht.symbols_eq] at hsymbol
    obtain ⟨row, entry', hrow, hentry', hget'⟩ := ht.get?_eq state symbol hrow.1 hrow.2 hsymbol
    rw [hget] at hget'
    cases hget'
    obtain ⟨block, _, hblock⟩ := exists_of_mem_right hblocks (List.mem_of_getElem? hrow)
    exact hblock.transition_lt hlow entry (List.mem_of_getElem? hentry')
  refine ⟨?_, ?_, ?_⟩
  · rw [ht.states_eq, ← hblocks.length_eq]
    exact List.length_pos_iff.mpr hne
  · intro state symbol entry hget
    rw [ht.symbols_eq]
    exact (hentry hget).1
  · intro state symbol entry hget
    rw [ht.states_eq]
    exact (hentry hget).2

/-! ## decoding -/

theorem decodeOn_eq_ok_iff {code : String} {symbols : Nat} {blank : Symbol} {m : Machine} :
    decodeOn code symbols blank = .ok m ↔ Code.parseTable code symbols = .ok m.table ∧
      m.code = Text.trimString code ∧ m.allTape = blank := by
  rw [decodeOn, bind_eq_ok_iff]
  constructor
  · rintro ⟨t, ht, h⟩
    obtain ⟨hcode, rfl, hblank⟩ := Machine.ofTable_eq_ok_iff.mp h
    exact ⟨ht, hcode, hblank⟩
  · rintro ⟨ht, hcode, hblank⟩
    exact ⟨m.table, ht, Machine.ofTable_eq_ok_iff.mpr ⟨hcode, rfl, hblank⟩⟩

theorem Catalog.decode_eq_ok_iff {name : String} {m : Machine} :
    Catalog.decode name = .ok m ↔ ∃ e, Catalog.find name = .ok e ∧
      e.decode Catalog.defaultSymbols defaultBlank = .ok m := by
  rw [Catalog.decode, bind_eq_ok_iff]
  refine exists_congr fun e => and_congr_right fun _ => ?_
  cases e.decode Catalog.defaultSymbols defaultBlank with
  | error cause => simp [throw, throwThe, MonadExceptOf.throw]
  | ok m' => simp [pure, Except.pure]

/-- the ways to come by a machine over an alphabet of some size from a code -/
inductive Decoded : (symbols : Nat) → Machine → Prop
  | decodeOn {code : String} {symbols : Nat} {blank : Symbol} {m : Machine}
    (h : decodeOn code symbols blank = .ok m) : Decoded symbols m
  | decode {code : String} {symbols : Nat} {m : Machine}
    (h : decode code symbols = .ok m) : Decoded symbols m
  | entry {e : Listing.Entry} {defaultSymbols : Nat} {blank : Symbol} {m : Machine}
    (h : e.decode defaultSymbols blank = .ok m) : Decoded (e.symbols.getD defaultSymbols) m
  | catalog {name : String} {e : Listing.Entry} {m : Machine}
    (hfind : Catalog.find name = .ok e) (h : Catalog.decode name = .ok m) :
    Decoded (e.symbols.getD Catalog.defaultSymbols) m
  | withAllTape {symbols : Nat} {blank : Symbol} {m m' : Machine} (h : Decoded symbols m)
    (h' : m.withAllTape blank = .ok m') : Decoded symbols m'

/-- the blank that a code was decoded on is the one of the machine -/
theorem decodeOn_allTape {code : String} {symbols : Nat} {blank : Symbol} {m : Machine}
    (h : decodeOn code symbols blank = .ok m) : decodeOn code symbols m.allTape = .ok m := by
  rw [(decodeOn_eq_ok_iff.mp h).2.2]
  exact h

/-- however it was come by, a decoded machine is that of a code on its own blank -/
theorem Decoded.exists_decodeOn {symbols : Nat} {m : Machine} (h : Decoded symbols m) :
    ∃ code, Holdout.decodeOn code symbols m.allTape = .ok m := by
  induction h with
  | decodeOn h => exact ⟨_, decodeOn_allTape h⟩
  | decode h => exact ⟨_, decodeOn_allTape h⟩
  | entry h => exact ⟨_, decodeOn_allTape h⟩
  | catalog hfind h =>
    obtain ⟨e, hfind', h⟩ := Catalog.decode_eq_ok_iff.mp h
    rw [hfind] at hfind'
    cases hfind'
    exact ⟨_, decodeOn_allTape h⟩
  | withAllTape _ h' ih =>
    obtain ⟨code, hcode⟩ := ih
    obtain ⟨htable, hname, _⟩ := decodeOn_eq_ok_iff.mp hcode
    obtain ⟨hcode', htable', _⟩ := Machine.ofTable_eq_ok_iff.mp h'
    rw [← htable'] at htable
    exact ⟨code, decodeOn_eq_ok_iff.mpr ⟨htable, hcode'.trans hname, rfl⟩⟩

theorem Decoded.exists_parseTable {symbols : Nat} {m : Machine} (h : Decoded symbols m) :
    ∃ code, Code.parseTable code symbols = .ok m.table := by
  obtain ⟨code, hcode⟩ := h.exists_decodeOn
  exact ⟨code, (decodeOn_eq_ok_iff.mp hcode).1⟩

theorem Decoded.symbols_eq {symbols : Nat} {m : Machine} (h : Decoded symbols m) :
    m.symbols = symbols := by
  obtain ⟨code, htable⟩ := h.exists_parseTable
  obtain ⟨_, _, _, ht⟩ := Code.parseTable_eq_ok_iff_denotes.mp htable
  exact ht.symbols_eq

theorem Decoded.symbols_le {symbols : Nat} {m : Machine} (h : Decoded symbols m) :
    symbols ≤ 10 := by
  obtain ⟨code, htable⟩ := h.exists_parseTable
  obtain ⟨⟨_, hle⟩, _⟩ := Code.parseTable_eq_ok_iff_denotes.mp htable
  exact hle

theorem Decoded.closed {symbols : Nat} {m : Machine} (h : Decoded symbols m) :
    m.table.Closed := by
  obtain ⟨code, htable⟩ := h.exists_parseTable
  exact closed_of_parseTable htable

end Holdout
