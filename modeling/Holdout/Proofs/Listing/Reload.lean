import Holdout.Listing.Reader
import Holdout.Proofs.Code.RoundTrip
import Holdout.Proofs.Text.Pieces

/-!
# Listings written back

Entries that were read can be written as lines again, whatever they look like: a name may hold white
space inside, a code may hold colons or start with `#`, a size may have been given with a plus sign
and zeros in front.

* `Entry.chars`, `written`   the line `name: code size` of an entry, and the lines of several;
* `Entry.Plain`              what the parts of an entry can be that was read from a line;
* `plain_of_readLine`        they are;
* `readLine_chars`           the line of such an entry is read as the entry;
* `written_reloads`          hence entries that were read are read again from their own lines.
-/

namespace Holdout.Listing

open Text

/-! ## writing -/

def sizeChars : Option Nat → List Char
  | none => []
  | some symbols => ' ' :: Decimal.digits symbols

/-- the line `name: code size`; nothing stands before the colon if there is no name, and nothing
after the code if there is no size -/
def Entry.chars (e : Entry) : List Char :=
  (e.name.getD "").toList ++ ':' :: ' ' :: (e.code.toList ++ sizeChars e.symbols)

def written (es : List Entry) : String := String.ofList (['\n'].intercalate (es.map Entry.chars))

/-- the same entries on the lines one, two, three and so on -/
def renumbered (es : List Entry) : List Entry := es.mapIdx fun i e => { e with line := i + 1 }

/-! ## entries that were read -/

/-- The name is not empty, is trimmed and neither starts a comment nor holds a colon; the code is
one field; the size fits in 64 bits. -/
structure Entry.Plain (e : Entry) : Prop where
  name_ne : ∀ n, e.name = some n → n.toList ≠ []
  name_trimmed : ∀ n, e.name = some n → Trimmed n.toList
  name_kept : ∀ n, e.name = some n → n.toList.head? ≠ some commentMark
  name_unmarked : ∀ n, e.name = some n → nameMark ∉ n.toList ∧ '\n' ∉ n.toList
  code_ne : e.code.toList ≠ []
  code_field : ∀ c ∈ e.code.toList, isBlank c = false
  size_lt : ∀ symbols, e.symbols = some symbols → symbols < Decimal.wordBound

/-- the fields after the code, as a size -/
inductive HasSize : List (List Char) → Option Nat → Prop
  | none : HasSize [] none
  | some {size : List Char} {symbols : Nat} (h : Decimal.count? size = some symbols) :
    HasSize [size] (some symbols)

theorem entryOfFields_eq_ok_iff {name : Option (List Char)} {number : Nat}
    {texts : List (List Char)} {e : Entry} :
    entryOfFields name number texts = .ok e ↔
      (e.name = (name.filter fun n => !n.isEmpty).map String.ofList ∧ e.line = number) ∧
        ∃ sizes, texts = e.code.toList :: sizes ∧ HasSize sizes e.symbols := by
  constructor
  · intro h
    unfold entryOfFields at h
    split at h
    · cases h
    · next code sizes =>
      split at h
      · cases h
        exact ⟨⟨rfl, rfl⟩, [], by simp, .none⟩
      · next size extra =>
        split at h
        · cases h
        · next symbols hsize =>
          cases h
          exact ⟨⟨rfl, rfl⟩, [size], by simp, .some hsize⟩
        · cases h
  · obtain ⟨ename, code, symbols, line⟩ := e
    rintro ⟨⟨rfl, rfl⟩, sizes, rfl, hsize⟩
    cases hsize with
    | none => simp [entryOfFields]
    | some hsize => simp [entryOfFields, hsize]

theorem readLine_eq_ok_iff {line : List Char} {number : Nat} {e : Entry} :
    readLine (line, number) = .ok e ↔
      entryOfFields (splitName line).1 number (fields (splitName line).2) = .ok e := by
  unfold readLine
  cases hsplit : splitName line with
  | mk name text =>
    cases hentry : entryOfFields name number (fields text) with
    | error fault => simp [hentry]
    | ok entry => simp [hentry]

theorem splitName_of_mark {before : List Char} (h : nameMark ∉ before) (after : List Char) :
    splitName (before ++ nameMark :: after) = (some (trim before), after) := by
  rw [splitName, cutAt?_append after h]

/-- a line has a name exactly if it has a mark, and the name is what stands before the first one -/
theorem splitName_fst_eq_some {line n : List Char} (h : (splitName line).1 = some n) :
    ∃ before after, line = before ++ nameMark :: after ∧ nameMark ∉ before ∧ n = trim before := by
  unfold splitName at h
  cases hcut : cutAt? nameMark line with
  | none =>
    rw [hcut] at h
    cases h
  | some parts =>
    obtain ⟨before, after⟩ := parts
    rw [hcut] at h
    cases h
    obtain ⟨hline, hnot⟩ := cutAt?_eq_some_iff.mp hcut
    exact ⟨before, after, hline, hnot, rfl⟩

theorem count?_eq_some {text : List Char} {symbols : Nat} (h : Decimal.count? text = some symbols) :
    symbols < Decimal.wordBound := by
  have hunsigned : ∀ cs, Decimal.unsigned? cs = some symbols → symbols < Decimal.wordBound := by
    intro cs hcs
    obtain ⟨_, heq, hlt⟩ := Decimal.unsigned?_eq_some_iff.mp hcs
    rwa [heq] at hlt
  unfold Decimal.count? at h
  split at h
  · exact hunsigned _ h
  · exact hunsigned _ h

/-- what is read from a trimmed line that is no comment -/
theorem plain_of_readLine {line : List Char} {number : Nat} {e : Entry} (htrim : Trimmed line)
    (hkept : isKept line = true) (hfeed : '\n' ∉ line) (h : readLine (line, number) = .ok e) :
    e.Plain := by
  obtain ⟨⟨hname, _⟩, sizes, htexts, hsize⟩ := entryOfFields_eq_ok_iff.mp (readLine_eq_ok_iff.mp h)
  have hcode : e.code.toList ≠ [] ∧ ∀ c ∈ e.code.toList, isBlank c = false := by
    have hmem : e.code.toList ∈ fields (splitName line).2 := by
      rw [htexts]
      exact List.mem_cons_self
    exact mem_fields hmem
  have hnamed : ∀ n, e.name = some n → n.toList ≠ [] ∧ ∃ before after,
      line = before ++ nameMark :: after ∧ nameMark ∉ before ∧ n.toList = trim before := by
    intro n hn
    rw [hname] at hn
    obtain ⟨text, htext, rfl⟩ := Option.map_eq_some_iff.mp hn
    obtain ⟨hsplit, hne⟩ := Option.filter_eq_some_iff.mp htext
    rw [String.toList_ofList]
    refine ⟨?_, splitName_fst_eq_some hsplit⟩
    rintro rfl
    cases hne
  refine ⟨fun n hn => (hnamed n hn).1, ?_, ?_, ?_, hcode.1, hcode.2, ?_⟩
  · intro n hn
    obtain ⟨_, before, _, _, _, heq⟩ := hnamed n hn
    exact heq ▸ trimmed_trim before
  · -- a name that is not empty starts with the first character of its line
    intro n hn hhead
    obtain ⟨_, before, after, rfl, _, heq⟩ := hnamed n hn
    have hline : ∀ c, before.head? = some c → (before ++ nameMark :: after).head? = some c := by
      intro c hc
      rw [List.head?_append, hc]
      rfl
    rw [heq] at hhead
    have hfirst := hline _ (head?_of_head?_trim (fun c hc => htrim.head c (hline c hc)) hhead)
    obtain ⟨later, hcomment⟩ := List.head?_eq_some_iff.mp hfirst
    rw [hcomment] at hkept
    cases hkept
  · intro n hn
    obtain ⟨_, before, after, rfl, hnot, heq⟩ := hnamed n hn
    rw [heq]
    refine ⟨fun hmem => hnot (mem_of_mem_trim hmem), fun hmem => hfeed ?_⟩
    exact List.mem_append_left _ (mem_of_mem_trim hmem)
  · intro symbols hsymbols
    rw [hsymbols] at hsize
    cases hsize with
    | some hcount => exact count?_eq_some hcount

/-! ## their lines -/

theorem count?_digits {symbols : Nat} (h : symbols < Decimal.wordBound) :
    Decimal.count? (Decimal.digits symbols) = some symbols := by
  rw [Decimal.count?_of_forall fun _ => Decimal.isDigit_of_mem_digits, Decimal.unsigned?_digits h]

theorem not_blank_digits (symbols : Nat) : ∀ c ∈ Decimal.digits symbols, isBlank c = false :=
  fun _ hc => (Code.plain_of_isDigit (Decimal.isDigit_of_mem_digits hc)).2

theorem nameMark_not_mem {n : Option String} (h : ∀ s, n = some s → nameMark ∉ s.toList) :
    nameMark ∉ (n.getD "").toList := by
  cases n with
  | none => exact List.not_mem_nil
  | some s => exact h s rfl

namespace Entry.Plain

variable {e : Entry} (h : e.Plain)
include h

theorem fields_eq : ∃ sizes, fields (' ' :: (e.code.toList ++ sizeChars e.symbols)) =
    e.code.toList :: sizes ∧ HasSize sizes e.symbols := by
  rw [fields_cons rfl]
  cases hsize : e.symbols with
  | none =>
    rw [sizeChars, List.append_nil, fields_of_forall h.code_ne h.code_field]
    exact ⟨[], rfl, .none⟩
  | some symbols =>
    rw [sizeChars, fields_append_cons rfl, fields_of_forall h.code_ne h.code_field,
      fields_of_forall (Decimal.digits_ne_nil symbols) (not_blank_digits symbols)]
    exact ⟨[Decimal.digits symbols], rfl, .some (count?_digits (h.size_lt symbols hsize))⟩

theorem name_eq : ((some (trim (e.name.getD "").toList)).filter fun n => !n.isEmpty).map
    String.ofList = e.name := by
  cases hname : e.name with
  | none => rfl
  | some n =>
    have hne := h.name_ne n hname
    rw [Option.getD_some, trim_of_trimmed (h.name_trimmed n hname)]
    simp [hne]

/-- the line of an entry is read as the entry -/
theorem readLine_chars (number : Nat) :
    readLine (e.chars, number) = .ok { e with line := number } := by
  have hmark : nameMark ∉ (e.name.getD "").toList :=
    nameMark_not_mem fun n hn => (h.name_unmarked n hn).1
  rw [readLine_eq_ok_iff, Entry.chars, ← nameMark, splitName_of_mark hmark,
    entryOfFields_eq_ok_iff]
  exact ⟨⟨h.name_eq.symm, rfl⟩, h.fields_eq⟩

theorem trimmed_end : Trimmed (e.code.toList ++ sizeChars e.symbols) := by
  have hcode := trimmed_of_forall h.code_field
  cases e.symbols with
  | none =>
    rw [sizeChars, List.append_nil]
    exact hcode
  | some symbols =>
    exact hcode.append_cons (trimmed_of_forall (not_blank_digits symbols)) h.code_ne
      (Decimal.digits_ne_nil symbols) ' '

theorem trimmed_chars : Trimmed e.chars := by
  have hname : Trimmed ((e.name.getD "").toList ++ [':']) := by
    have hmark : Trimmed [':'] := by
      refine trimmed_of_forall fun c hc => ?_
      rw [List.mem_singleton.mp hc]
      rfl
    cases hn : e.name with
    | none => exact hmark
    | some n => exact (h.name_trimmed n hn).append hmark
  have hend : e.code.toList ++ sizeChars e.symbols ≠ [] := List.append_ne_nil_of_left_ne_nil
    h.code_ne _
  have hchars : e.chars = ((e.name.getD "").toList ++ [':']) ++
      ' ' :: (e.code.toList ++ sizeChars e.symbols) := by
    rw [List.append_assoc]
    rfl
  rw [hchars]
  exact hname.append_cons h.trimmed_end (by simp) hend ' '

theorem isKept_chars : isKept e.chars = true := by
  unfold Entry.chars
  cases hn : e.name with
  | none => rfl
  | some n =>
    obtain ⟨c, cs, hcs⟩ := List.exists_cons_of_ne_nil (h.name_ne n hn)
    have hc : c ≠ commentMark := by
      rintro rfl
      exact h.name_kept n hn (by rw [hcs]; rfl)
    rw [Option.getD_some, hcs]
    simp [isKept, hc]

theorem feed_not_mem_chars : '\n' ∉ e.chars := by
  have hfield : ∀ {cs : List Char}, (∀ c ∈ cs, isBlank c = false) → '\n' ∉ cs := by
    intro cs hcs hmem
    cases hcs '\n' hmem
  have hname : '\n' ∉ (e.name.getD "").toList := by
    cases hn : e.name with
    | none => exact List.not_mem_nil
    | some n => exact (h.name_unmarked n hn).2
  have hsize : '\n' ∉ sizeChars e.symbols := by
    cases e.symbols with
    | none => exact List.not_mem_nil
    | some symbols => simp [sizeChars, hfield (not_blank_digits symbols)]
  simp [Entry.chars, hname, hfield h.code_field, hsize]

end Entry.Plain

/-! ## listings -/

theorem mem_keptLines {content line : List Char} {number : Nat}
    (h : (line, number) ∈ keptLines content) :
    Trimmed line ∧ isKept line = true ∧ '\n' ∉ line := by
  obtain ⟨hline, hkept⟩ := List.mem_filter.mp h
  obtain ⟨piece, hpiece, rfl⟩ := List.mem_map.mp (List.fst_mem_of_mem_zipIdx hline)
  refine ⟨trimmed_trim piece, hkept, fun hmem => ?_⟩
  have hnot := eq_false_of_mem_splitOnP piece hpiece '\n' (mem_of_mem_trim hmem)
  cases hnot

theorem plain_of_read {content : String} {es : List Entry} (h : read content = .ok es) :
    ∀ e ∈ es, e.Plain := by
  intro e he
  obtain ⟨⟨line, number⟩, hmem, hread⟩ := exists_of_mem_right (mapM_eq_ok_iff.mp h) he
  obtain ⟨htrim, hkept, hfeed⟩ := mem_keptLines hmem
  exact plain_of_readLine htrim hkept hfeed hread

/-- the lines that are written are kept, each under its number -/
theorem keptLines_written {es : List Entry} (h : ∀ e ∈ es, e.Plain) :
    keptLines (written es).toList = (es.map Entry.chars).zipIdx 1 := by
  rw [written, String.toList_ofList, keptLines, numberedLines]
  cases es with
  | nil => rfl
  | cons first later =>
    have hsplit : (['\n'].intercalate ((first :: later).map Entry.chars)).splitOn '\n' =
        (first :: later).map Entry.chars := by
      refine List.splitOn_intercalate '\n' ?_ (List.cons_ne_nil _ _)
      intro line hline
      obtain ⟨e, he, rfl⟩ := List.mem_map.mp hline
      exact (h e he).feed_not_mem_chars
    have htrim : ((first :: later).map Entry.chars).map trim =
        (first :: later).map Entry.chars := by
      rw [List.map_map]
      exact List.map_congr_left fun e he => trim_of_trimmed (h e he).trimmed_chars
    rw [hsplit, htrim]
    refine List.filter_eq_self.mpr ?_
    rintro ⟨line, number⟩ hline
    obtain ⟨e, he, rfl⟩ := List.mem_map.mp (List.fst_mem_of_mem_zipIdx hline)
    exact (h e he).isKept_chars

theorem forall₂_readLine {es : List Entry} (h : ∀ e ∈ es, e.Plain) (k : Nat) :
    List.Forall₂ (fun line e => readLine line = .ok e) ((es.map Entry.chars).zipIdx k)
      (es.mapIdx fun i e => { e with line := i + k }) := by
  induction es generalizing k with
  | nil => exact .nil
  | cons e es ih =>
    have hshift : ∀ i, i + 1 + k = i + (k + 1) := by omega
    rw [List.map_cons, List.zipIdx_cons, List.mapIdx_cons]
    simp only [hshift, Nat.zero_add]
    exact .cons ((h e List.mem_cons_self).readLine_chars k)
      (ih (fun e' he' => h e' (List.mem_cons_of_mem e he')) (k + 1))

/-- **Entries that were read can be written back and read again.** -/
theorem written_reloads {content : String} {es : List Entry} (h : read content = .ok es) :
    read (written es) = .ok (renumbered es) := by
  have hplain := plain_of_read h
  rw [read, readChars, keptLines_written hplain, mapM_eq_ok_iff]
  exact forall₂_readLine hplain 1

/-- names with white space inside, codes with a colon or a number sign, a size with a plus sign and
zeros, a comment, an empty line and an empty name -/
def oddLines : String :=
  "# odd ones\n\ta  b\u2003: 1RB:1LB +07 \r\n\n : #x\n1RB---_1LB0RB 2"

theorem written_reloads_oddLines :
    read oddLines = .ok
        [⟨some "a  b", "1RB:1LB", some 7, 2⟩, ⟨none, "#x", none, 4⟩,
          ⟨none, "1RB---_1LB0RB", some 2, 5⟩] ∧
      written [⟨some "a  b", "1RB:1LB", some 7, 2⟩, ⟨none, "#x", none, 4⟩,
        ⟨none, "1RB---_1LB0RB", some 2, 5⟩] =
          "a  b: 1RB:1LB 7\n: #x\n: 1RB---_1LB0RB 2" ∧
      read "a  b: 1RB:1LB 7\n: #x\n: 1RB---_1LB0RB 2" = .ok
        [⟨some "a  b", "1RB:1LB", some 7, 1⟩, ⟨none, "#x", none, 2⟩,
          ⟨none, "1RB---_1LB0RB", some 2, 3⟩] := by
  have hread : read oddLines = .ok
      [⟨some "a  b", "1RB:1LB", some 7, 2⟩, ⟨none, "#x", none, 4⟩,
        ⟨none, "1RB---_1LB0RB", some 2, 5⟩] := by decide
  have hwritten : written [⟨some "a  b", "1RB:1LB", some 7, 2⟩, ⟨none, "#x", none, 4⟩,
      ⟨none, "1RB---_1LB0RB", some 2, 5⟩] = "a  b: 1RB:1LB 7\n: #x\n: 1RB---_1LB0RB 2" := by
    decide
  refine ⟨hread, hwritten, ?_⟩
  rw [← hwritten]
  exact written_reloads hread

end Holdout.Listing
