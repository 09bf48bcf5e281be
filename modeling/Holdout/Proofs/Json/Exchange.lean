import Holdout.Exchange.Listing
import Holdout.Exchange.Machine
import Holdout.Exchange.Run
import Holdout.Proofs.Json.Text
import Holdout.Proofs.Pointwise
import Mathlib.Data.List.Nodup

/-!
# Program values and their texts

Every exchanged type has a way to write its values and one to read them.  Reading undoes writing as
long as the numbers are of 64 bits, and reading gives no other values.

* `Exchanges`               what is written is read as before, and what is read fits;
* `Exchanges.listOf?`       lists of exchanged values;
* `Exchanges.read_optional` a value that may be absent;
* `Value.fields?_record`    the fields of a structure are found in the record of them;
* `RoundTrips`              the same between values and texts;
* `json_reading_undoes_writing`   it holds of the nine exchanged types.
-/

namespace Holdout

namespace Json

/-! ## exchanged types -/

/-- the values that fit are read as they were written, and only such values are read -/
structure Exchanges {α : Type} (write : α → Value) (read : Value → Option α) (Fits : α → Prop) :
    Prop where
  read_write : ∀ {a}, Fits a → read (write a) = some a
  fits_of_read : ∀ {v a}, read v = some a → Fits a
  /-- so a value that is there is told from an absent one -/
  write_ne_null : ∀ a, write a ≠ .null

namespace Exchanges

variable {α : Type} {write : α → Value} {read : Value → Option α} {Fits : α → Prop}

theorem read_required (h : Exchanges write read Fits) {a : α} (ha : Fits a) :
    required read (some (write a)) = some a :=
  h.read_write ha

theorem fits_of_required (h : Exchanges write read Fits) {field : Option Value} {a : α}
    (ha : required read field = some a) : Fits a := by
  obtain ⟨v, _, hv⟩ := Option.bind_eq_some_iff.mp ha
  exact h.fits_of_read hv

theorem read_optional (h : Exchanges write read Fits) {o : Option α} (ho : ∀ a ∈ o, Fits a) :
    optional read (some (Value.ofOption write o)) = some o := by
  cases o with
  | none => rfl
  | some a =>
    rw [Value.ofOption, optional, h.read_write (ho a rfl), Option.map_some]
    exact fun hnull => h.write_ne_null a hnull

theorem fits_of_optional (h : Exchanges write read Fits) {field : Option Value} {o : Option α}
    (ho : optional read field = some o) : ∀ a ∈ o, Fits a := by
  intro a ha
  unfold optional at ho
  split at ho
  · cases ho
    cases ha
  · cases ho
    cases ha
  · obtain ⟨b, hb, rfl⟩ := Option.map_eq_some_iff.mp ho
    cases ha
    exact h.fits_of_read hb

theorem listOf? (h : Exchanges write read Fits) :
    Exchanges (fun as => .list (as.map write)) (Value.listOf? read)
      (fun as => ∀ a ∈ as, Fits a) where
  read_write := by
    intro as has
    refine mapM_eq_some_iff.mpr (List.forall₂_map_left_iff.mpr (List.forall₂_same.mpr ?_))
    exact fun a ha => h.read_write (has a ha)
  fits_of_read := by
    intro v as has a ha
    cases v with
    | list vs =>
      obtain ⟨v, _, hv⟩ := exists_of_mem_right (mapM_eq_some_iff.mp has) ha
      exact h.fits_of_read hv
    | _ => cases has
  write_ne_null := nofun

end Exchanges

/-! ## plain values -/

theorem exchanges_word : Exchanges .number Value.word? (· < Decimal.wordBound) where
  read_write := fun h => Decimal.bounded?_eq_some_iff.mpr ⟨rfl, h⟩
  fits_of_read := by
    intro v n h
    cases v with
    | number m =>
      obtain ⟨rfl, hm⟩ := Decimal.bounded?_eq_some_iff.mp h
      exact hm
    | _ => cases h
  write_ne_null := nofun

theorem exchanges_byte :
    Exchanges (fun b : UInt8 => .number b.toNat) Value.byte? (fun _ => True) where
  read_write := by
    intro b _
    rw [Value.byte?, Value.below?, if_pos b.toNat_lt, Option.map_some, UInt8.ofNat_toNat]
  fits_of_read := fun _ => trivial
  write_ne_null := nofun

theorem exchanges_text : Exchanges .text Value.text? (fun _ => True) where
  read_write := fun _ => rfl
  fits_of_read := fun _ => trivial
  write_ne_null := nofun

theorem exchanges_char :
    Exchanges (fun c => .text (String.singleton c)) Value.char? (fun _ => True) where
  read_write := by
    intro c _
    simp [Value.char?]
  fits_of_read := fun _ => trivial
  write_ne_null := nofun

/-! ## structures -/

theorem Value.lookup_eq_some {fields : List (String × Value)}
    (h : (fields.map Prod.fst).Nodup) {field : String × Value} (hfield : field ∈ fields) :
    fields.lookup field.1 = some field.2 := by
  induction fields with
  | nil => cases hfield
  | cons first fields ih =>
    obtain ⟨hnot, h⟩ := List.nodup_cons.mp h
    rcases List.mem_cons.mp hfield with rfl | hfield
    · exact List.lookup_cons_self
    · have hne : (field.1 == first.1) = false := by
        refine beq_eq_false_iff_ne.mpr fun heq => hnot ?_
        rw [← heq]
        exact List.mem_map_of_mem hfield
      rw [List.lookup_cons, hne]
      exact ih h hfield

/-- the fields of a structure are found in the record of them -/
theorem Value.fields?_record {fields : List (String × Value)} {names : List String}
    (hnames : fields.map Prod.fst = names) (hnodup : names.Nodup) :
    (record fields).fields? names = some (fields.map fun field => some field.2) := by
  subst hnames
  have honce : noneTwice (fields.map Prod.fst) fields = true := by
    refine List.all_eq_true.mpr fun name _ => decide_eq_true ?_
    have hcount := List.nodup_iff_count_le_one.mp hnodup name
    rw [List.count, List.countP_map] at hcount
    exact hcount
  rw [fields?, honce, if_pos rfl, List.map_map]
  exact congrArg some (List.map_congr_left fun field hfield => lookup_eq_some hnodup hfield)

end Json

open Json (Exchanges exchanges_word exchanges_byte exchanges_text exchanges_char)
open Json (Value)

/-! ## machines -/

theorem exchanges_direction :
    Exchanges Direction.toJson Direction.ofJson? (fun _ => True) where
  read_write := by
    intro d _
    cases d <;> rfl
  fits_of_read := fun _ => trivial
  write_ne_null := nofun

namespace Transition

/-- the next state is a number of 64 bits; what fits is said in the same way for the other types -/
def Fits (t : Transition) : Prop := t.next < Decimal.wordBound

theorem exchanges : Exchanges toJson ofJson? Fits where
  read_write := by
    intro t ht
    have hfields : t.toJson.fields? ["write", "shift", "next"] = some
        [some (.number t.write.toNat), some t.shift.toJson, some (.number t.next)] :=
      Value.fields?_record rfl (by decide)
    simp only [ofJson?, hfields, exchanges_byte.read_required trivial,
      exchanges_direction.read_required trivial, exchanges_word.read_required ht]
    rfl
  fits_of_read := by
    intro v t h
    unfold ofJson? at h
    split at h
    · simp only [Option.bind_eq_bind, Option.bind_eq_some_iff, Option.pure_def,
        Option.some_inj] at h
      obtain ⟨write, _, shift, _, next, hnext, rfl⟩ := h
      exact exchanges_word.fits_of_required hnext
    · cases h
  write_ne_null := nofun

end Transition

namespace Analysis

def Fits (a : Analysis) : Prop :=
  a.haltTransitions < Decimal.wordBound ∧ a.undefinedTransitions < Decimal.wordBound

theorem exchanges : Exchanges toJson ofJson? Fits where
  read_write := by
    intro a ⟨hhalts, hundefineds⟩
    have hfields : a.toJson.fields?
        ["halt_transitions", "undefined_transitions", "unreachable_states", "single_direction"] =
        some [some (.number a.haltTransitions), some (.number a.undefinedTransitions),
          some (.list (a.unreachableStates.map fun c => .text (String.singleton c))),
          some (Value.ofOption Direction.toJson a.singleDirection)] :=
      Value.fields?_record rfl (by decide)
    simp only [ofJson?, hfields, exchanges_word.read_required hhalts,
      exchanges_word.read_required hundefineds,
      exchanges_char.listOf?.read_required fun _ _ => trivial,
      exchanges_direction.read_optional fun _ _ => trivial]
    rfl
  fits_of_read := by
    intro v a h
    unfold ofJson? at h
    split at h
    · simp only [Option.bind_eq_bind, Option.bind_eq_some_iff, Option.pure_def,
        Option.some_inj] at h
      obtain ⟨halts, hhalts, undefineds, hundefineds, _, _, _, _, rfl⟩ := h
      exact ⟨exchanges_word.fits_of_required hhalts, exchanges_word.fits_of_required hundefineds⟩
    · cases h
  write_ne_null := nofun

end Analysis

/-! ## runs -/

namespace Span

/-- the seconds are a number of 64 bits, and the nanoseconds are less than a second anyway -/
def Fits (s : Span) : Prop := s.secs < Decimal.wordBound

theorem ofParts_self (s : Span) : ofParts s.secs s.nanos = s := by
  obtain ⟨secs, nanos, hnanos⟩ := s
  simp only [ofParts, Nat.div_eq_of_lt hnanos, Nat.mod_eq_of_lt hnanos, Nat.add_zero]

theorem exchanges_nanos : Exchanges .number (Value.below? nanosBound) (· < nanosBound) where
  read_write := fun h => if_pos h
  fits_of_read := by
    intro v n h
    cases v with
    | number m =>
      rw [Value.below?, Option.ite_none_right_eq_some] at h
      obtain ⟨hm, heq⟩ := h
      rw [← Option.some_inj.mp heq]
      exact hm
    | _ => cases h
  write_ne_null := nofun

theorem exchanges : Exchanges toJson ofJson? Fits where
  read_write := by
    intro s hs
    have hknown : s.toJson.fields? ["secs", "nanos"] =
        some [some (.number s.secs), some (.number s.nanos)] :=
      Value.fields?_record rfl (by decide)
    have hfields : s.toJson.onlyFields? ["secs", "nanos"] =
        some [some (.number s.secs), some (.number s.nanos)] :=
      (if_pos rfl).trans hknown
    have hnanos : s.nanos < nanosBound := Nat.lt_trans s.nanos_lt (by decide)
    simp only [ofJson?, hfields, exchanges_word.read_required hs,
      exchanges_nanos.read_required hnanos, Option.bind_eq_bind, Option.bind_some, ofParts_self]
    exact if_pos hs
  fits_of_read := by
    intro v s h
    unfold ofJson? at h
    split at h
    · simp only [Option.bind_eq_bind, Option.bind_eq_some_iff, Option.ite_none_right_eq_some,
        Option.some_inj] at h
      obtain ⟨secs, _, nanos, _, hfits, rfl⟩ := h
      exact hfits
    · cases h
  write_ne_null := nofun

end Span

namespace Limits

structure Fits (l : Limits) : Prop where
  space : l.space < Decimal.wordBound
  time : ∀ s ∈ l.time, s.Fits
  steps : ∀ n ∈ l.steps, n < Decimal.wordBound

theorem exchanges : Exchanges toJson ofJson? Fits where
  read_write := by
    intro l hl
    have hfields : l.toJson.fields? ["space", "time", "steps"] =
        some [some (.number l.space), some (Value.ofOption Span.toJson l.time),
          some (Value.ofOption .number l.steps)] :=
      Value.fields?_record rfl (by decide)
    simp only [ofJson?, hfields, exchanges_word.read_required hl.space,
      Span.exchanges.read_optional hl.time, exchanges_word.read_optional hl.steps]
    rfl
  fits_of_read := by
    intro v l h
    unfold ofJson? at h
    split at h
    · simp only [Option.bind_eq_bind, Option.bind_eq_some_iff, Option.pure_def,
        Option.some_inj] at h
      obtain ⟨space, hspace, time, htime, steps, hsteps, rfl⟩ := h
      exact ⟨exchanges_word.fits_of_required hspace, Span.exchanges.fits_of_optional htime,
        exchanges_word.fits_of_optional hsteps⟩
    · cases h
  write_ne_null := nofun

end Limits

theorem exchanges_limit : Exchanges Limit.toJson Limit.ofJson? (fun _ => True) where
  read_write := by
    intro l _
    cases l <;> rfl
  fits_of_read := fun _ => trivial
  write_ne_null := nofun

namespace Fault

def Fits : Fault → Prop
  | symbolOutOfRange state _ symbols => state < Decimal.wordBound ∧ symbols < Decimal.wordBound
  | invalidState state => state < Decimal.wordBound

theorem ofFields?_record {state symbols : Nat} (symbol : Symbol)
    (hstate : state < Decimal.wordBound) (hsymbols : symbols < Decimal.wordBound) :
    ofFields? (.record [("state", .number state), ("symbol", .number symbol.toNat),
      ("symbols", .number symbols)]) = some (symbolOutOfRange state symbol symbols) := by
  have hfields : (Value.record [("state", .number state), ("symbol", .number symbol.toNat),
      ("symbols", .number symbols)]).fields? ["state", "symbol", "symbols"] =
      some [some (.number state), some (.number symbol.toNat), some (.number symbols)] :=
    Value.fields?_record rfl (by decide)
  simp only [ofFields?, hfields, exchanges_word.read_required hstate,
    exchanges_byte.read_required trivial, exchanges_word.read_required hsymbols]
  rfl

theorem fits_of_ofFields? {v : Value} {f : Fault} (h : ofFields? v = some f) : f.Fits := by
  unfold ofFields? at h
  split at h
  · simp only [Option.bind_eq_bind, Option.bind_eq_some_iff, Option.pure_def,
      Option.some_inj] at h
    obtain ⟨state, hstate, symbol, _, symbols, hsymbols, rfl⟩ := h
    exact ⟨exchanges_word.fits_of_required hstate, exchanges_word.fits_of_required hsymbols⟩
  · cases h

theorem exchanges : Exchanges toJson ofJson? Fits where
  read_write := by
    intro f hf
    cases f with
    | symbolOutOfRange state symbol symbols => exact ofFields?_record symbol hf.1 hf.2
    | invalidState state => exact congrArg (Option.map invalidState) (exchanges_word.read_write hf)
  fits_of_read := by
    intro v f h
    unfold ofJson? at h
    split at h
    · exact fits_of_ofFields? h
    · obtain ⟨state, hstate, rfl⟩ := Option.map_eq_some_iff.mp h
      exact exchanges_word.fits_of_read hstate
    · cases h
  write_ne_null := by
    intro f
    cases f <;> nofun

end Fault

namespace Outcome

def Fits : Outcome → Prop
  | halted score steps => score < Decimal.wordBound ∧ steps < Decimal.wordBound
  | exceeded _ => True
  | failed fault => fault.Fits

theorem ofFields?_record {score steps : Nat} (hscore : score < Decimal.wordBound)
    (hsteps : steps < Decimal.wordBound) :
    ofFields? (.record [("score", .number score), ("steps", .number steps)]) =
      some (halted score steps) := by
  have hfields : (Value.record [("score", .number score), ("steps", .number steps)]).fields?
      ["score", "steps"] = some [some (.number score), some (.number steps)] :=
    Value.fields?_record rfl (by decide)
  simp only [ofFields?, hfields, exchanges_word.read_required hscore,
    exchanges_word.read_required hsteps]
  rfl

theorem fits_of_ofFields? {v : Value} {o : Outcome} (h : ofFields? v = some o) : o.Fits := by
  unfold ofFields? at h
  split at h
  · simp only [Option.bind_eq_bind, Option.bind_eq_some_iff, Option.pure_def,
      Option.some_inj] at h
    obtain ⟨score, hscore, steps, hsteps, rfl⟩ := h
    exact ⟨exchanges_word.fits_of_required hscore, exchanges_word.fits_of_required hsteps⟩
  · cases h

theorem exchanges : Exchanges toJson ofJson? Fits where
  read_write := by
    intro o ho
    cases o with
    | halted score steps => exact ofFields?_record ho.1 ho.2
    | exceeded limit =>
      exact congrArg (Option.map exceeded) (exchanges_limit.read_write (a := limit) trivial)
    | failed fault => exact congrArg (Option.map failed) (Fault.exchanges.read_write ho)
  fits_of_read := by
    intro v o h
    unfold ofJson? at h
    split at h
    · exact fits_of_ofFields? h
    · obtain ⟨limit, _, rfl⟩ := Option.map_eq_some_iff.mp h
      trivial
    · obtain ⟨fault, hfault, rfl⟩ := Option.map_eq_some_iff.mp h
      exact Fault.exchanges.fits_of_read hfault
    · cases h
  write_ne_null := by
    intro o
    cases o <;> nofun

end Outcome

namespace Snapshot

def Fits (s : Snapshot) : Prop := s.head < Decimal.wordBound ∧ s.visited < Decimal.wordBound

theorem exchanges : Exchanges toJson ofJson? Fits where
  read_write := by
    intro s ⟨hhead, hvisited⟩
    have hfields : s.toJson.fields? ["tape", "head", "visited"] =
        some [some (.list (s.tape.map fun b => .number b.toNat)), some (.number s.head),
          some (.number s.visited)] :=
      Value.fields?_record rfl (by decide)
    simp only [ofJson?, hfields, exchanges_byte.listOf?.read_required fun _ _ => trivial,
      exchanges_word.read_required hhead, exchanges_word.read_required hvisited]
    rfl
  fits_of_read := by
    intro v s h
    unfold ofJson? at h
    split at h
    · simp only [Option.bind_eq_bind, Option.bind_eq_some_iff, Option.pure_def,
        Option.some_inj] at h
      obtain ⟨tape, _, head, hhead, visited, hvisited, rfl⟩ := h
      exact ⟨exchanges_word.fits_of_required hhead, exchanges_word.fits_of_required hvisited⟩
    · cases h
  write_ne_null := nofun

end Snapshot

/-! ## listings -/

namespace Listing.Entry

def Fits (e : Entry) : Prop :=
  (∀ n ∈ e.symbols, n < Decimal.wordBound) ∧ e.line < Decimal.wordBound

theorem exchanges : Exchanges toJson ofJson? Fits where
  read_write := by
    intro e ⟨hsymbols, hline⟩
    have hfields : e.toJson.fields? ["name", "code", "symbols", "line"] =
        some [some (Value.ofOption .text e.name), some (.text e.code),
          some (Value.ofOption .number e.symbols), some (.number e.line)] :=
      Value.fields?_record rfl (by decide)
    simp only [ofJson?, hfields, exchanges_text.read_optional fun _ _ => trivial,
      exchanges_text.read_required trivial, exchanges_word.read_optional hsymbols,
      exchanges_word.read_required hline]
    rfl
  fits_of_read := by
    intro v e h
    unfold ofJson? at h
    split at h
    · simp only [Option.bind_eq_bind, Option.bind_eq_some_iff, Option.pure_def,
        Option.some_inj] at h
      obtain ⟨name, _, code, _, symbols, hsymbols, line, hline, rfl⟩ := h
      exact ⟨exchanges_word.fits_of_optional hsymbols, exchanges_word.fits_of_required hline⟩
    · cases h
  write_ne_null := nofun

end Listing.Entry

/-! ## texts -/

namespace Json

/-- the program value that a text is read as -/
def readAs? {α : Type} (read : Value → Option α) (text : String) : Option α :=
  (read? text).bind read

/-- a text that is read and written again -/
def rewrite? {α : Type} (write : α → Value) (read : Value → Option α) (text : String) :
    Option String :=
  (readAs? read text).map fun a => (write a).write

/-- reading undoes writing, and a text that has been written once stays as it is -/
structure RoundTrips {α : Type} (write : α → Value) (read : Value → Option α) (Fits : α → Prop) :
    Prop where
  read_text : ∀ a, Fits a → readAs? read (write a).write = some a
  read_again : ∀ text a, readAs? read text = some a → readAs? read (write a).write = some a
  rewrite_again : ∀ text text', rewrite? write read text = some text' →
    rewrite? write read text' = some text'

theorem Exchanges.roundTrips {α : Type} {write : α → Value} {read : Value → Option α}
    {Fits : α → Prop} (h : Exchanges write read Fits) : RoundTrips write read Fits := by
  have hread : ∀ a, Fits a → readAs? read (write a).write = some a := by
    intro a ha
    rw [readAs?, read?_write]
    exact h.read_write ha
  have hagain : ∀ text a, readAs? read text = some a → readAs? read (write a).write = some a := by
    intro text a ha
    obtain ⟨v, _, hv⟩ := Option.bind_eq_some_iff.mp ha
    exact hread a (h.fits_of_read hv)
  refine ⟨hread, hagain, ?_⟩
  intro text text' htext
  obtain ⟨a, ha, rfl⟩ := Option.map_eq_some_iff.mp htext
  rw [rewrite?, hagain text a ha, Option.map_some]

end Json

open Json (RoundTrips)

/-- **Reading undoes writing** for every exchanged type: every value is read back from its text, and
what an accepted text is read as is read again, and written alike, from its own text. -/
theorem json_reading_undoes_writing :
    RoundTrips Direction.toJson Direction.ofJson? (fun _ => True) ∧
    RoundTrips Limit.toJson Limit.ofJson? (fun _ => True) ∧
    RoundTrips Transition.toJson Transition.ofJson? Transition.Fits ∧
    RoundTrips Limits.toJson Limits.ofJson? Limits.Fits ∧
    RoundTrips Outcome.toJson Outcome.ofJson? Outcome.Fits ∧
    RoundTrips Fault.toJson Fault.ofJson? Fault.Fits ∧
    RoundTrips Snapshot.toJson Snapshot.ofJson? Snapshot.Fits ∧
    RoundTrips Listing.Entry.toJson Listing.Entry.ofJson? Listing.Entry.Fits ∧
    RoundTrips Analysis.toJson Analysis.ofJson? Analysis.Fits :=
  ⟨exchanges_direction.roundTrips, exchanges_limit.roundTrips, Transition.exchanges.roundTrips,
    Limits.exchanges.roundTrips, Outcome.exchanges.roundTrips, Fault.exchanges.roundTrips,
    Snapshot.exchanges.roundTrips, Listing.Entry.exchanges.roundTrips,
    Analysis.exchanges.roundTrips⟩

/-- the longest budget of time, and an entry with a quote, a control character and no name -/
theorem json_reading_undoes_writing_extremes :
    Json.readAs? Limits.ofJson? (Limits.toJson
        ⟨0, some ⟨18446744073709551615, 999999999, by decide⟩, some 18446744073709551615⟩).write =
      some ⟨0, some ⟨18446744073709551615, 999999999, by decide⟩, some 18446744073709551615⟩ ∧
    Json.readAs? Listing.Entry.ofJson?
        (Listing.Entry.toJson ⟨none, "1\"\x01\u2603", some 18446744073709551615, 0⟩).write =
      some ⟨none, "1\"\x01\u2603", some 18446744073709551615, 0⟩ := by
  obtain ⟨_, _, _, hlimits, _, _, _, hentry, _⟩ := json_reading_undoes_writing
  refine ⟨hlimits.read_text _ ⟨by decide, ?_, ?_⟩, hentry.read_text _ ⟨?_, by decide⟩⟩
  · intro s hs
    rw [← Option.some_inj.mp hs]
    exact (by decide : 18446744073709551615 < Decimal.wordBound)
  all_goals
    intro n hn
    rw [← Option.some_inj.mp hn]
    decide

end Holdout
