import Holdout.Proofs.FirstFault
import Holdout.Proofs.Listing.Reload

/-!
# The format of a listing

What a line has to look like is said here without the reader: where its name ends, which fields
follow and what a size is.  A listing is read exactly if every line that is kept looks like that,
and otherwise the first one that does not is reported.

* `SizeText`           digits after an optional plus sign;
* `Parts`              a line as a name and fields;
* `WellFormed`, `Spells`, `Spoils`   the lines that are read, the entry of such a line and what is
                       wrong with any other;
* `readLine_eq_ok_iff_spells`, `readLine_eq_error_iff`   a line is read, or refused, accordingly;
* `KeptLines`          the lines of a text that are kept, with their numbers;
* `sourceLines`        the lines of a text as a reader of files gives them, which differ from the
                       pieces between line feeds by what is not kept anyway;
* `listing_format`     all of it for a whole listing.
-/

namespace Holdout.Listing

open Text

/-! ## sizes -/

/-- at least one digit after an optional plus sign, and a number of 64 bits -/
inductive SizeText : List Char → Nat → Prop
  | plain {ds : List Char} (hne : ds ≠ []) (hds : ∀ c ∈ ds, c.isDigit = true)
    (hlt : Decimal.value ds < Decimal.wordBound) : SizeText ds (Decimal.value ds)
  | signed {ds : List Char} (hne : ds ≠ []) (hds : ∀ c ∈ ds, c.isDigit = true)
    (hlt : Decimal.value ds < Decimal.wordBound) : SizeText ('+' :: ds) (Decimal.value ds)

theorem sizeText_iff {text : List Char} {n : Nat} :
    SizeText text n ↔ Decimal.count? text = some n := by
  constructor
  · intro h
    cases h with
    | plain hne hds hlt =>
      rw [Decimal.count?_of_forall hds]
      exact Decimal.unsigned?_eq_some_iff.mpr ⟨⟨hne, hds⟩, rfl, hlt⟩
    | signed hne hds hlt => exact Decimal.unsigned?_eq_some_iff.mpr ⟨⟨hne, hds⟩, rfl, hlt⟩
  · intro h
    unfold Decimal.count? at h
    split at h
    · obtain ⟨⟨hne, hds⟩, rfl, hlt⟩ := Decimal.unsigned?_eq_some_iff.mp h
      exact .signed hne hds hlt
    · obtain ⟨⟨hne, hds⟩, rfl, hlt⟩ := Decimal.unsigned?_eq_some_iff.mp h
      exact .plain hne hds hlt

/-- no field for no size, or one field that is a size -/
inductive SizeFields : List (List Char) → Option Nat → Prop
  | none : SizeFields [] none
  | some {size : List Char} {symbols : Nat} (h : SizeText size symbols) :
    SizeFields [size] (some symbols)

theorem sizeFields_iff {sizes : List (List Char)} {symbols : Option Nat} :
    SizeFields sizes symbols ↔ HasSize sizes symbols := by
  constructor
  · intro h
    cases h with
    | none => exact .none
    | some h => exact .some (sizeText_iff.mp h)
  · intro h
    cases h with
    | none => exact .none
    | some h => exact .some (sizeText_iff.mpr h)

/-! ## lines -/

/-- a line as the name before its first colon, if there is one that is not empty, and the fields
after this colon; without a colon all of the line is fields -/
inductive Parts : List Char → Option String → List (List Char) → Prop
  | bare {line : List Char} {texts : List (List Char)} (h : ':' ∉ line)
    (hfields : Spaced line texts) : Parts line none texts
  | unnamed {before after : List Char} {texts : List (List Char)} (h : ':' ∉ before)
    (hname : trim before = []) (hfields : Spaced after texts) :
    Parts (before ++ ':' :: after) none texts
  | named {before after : List Char} {texts : List (List Char)} (h : ':' ∉ before)
    (hname : trim before ≠ []) (hfields : Spaced after texts) :
    Parts (before ++ ':' :: after) (some (String.ofList (trim before))) texts

/-- one field after the name, or two of which the second one is a size -/
def WellFormed (line : List Char) : Prop :=
  ∃ name code sizes symbols, Parts line name (code :: sizes) ∧ SizeFields sizes symbols

/-- a numbered line and the entry that it stands for -/
structure Spells (line : List Char × Nat) (e : Entry) : Prop where
  fields : ∃ sizes, Parts line.1 e.name (e.code.toList :: sizes) ∧ SizeFields sizes e.symbols
  line_eq : e.line = line.2

/-- what is wrong with a line: no field at all, a second one that is no size, or a third one after a
size -/
inductive Spoils (line : List Char) : LineFault → Prop
  | missingCode {name : Option String} (h : Parts line name []) : Spoils line .missingCode
  | invalidSize {name : Option String} {code size : List Char} {extra : List (List Char)}
    (h : Parts line name (code :: size :: extra)) (hsize : ∀ symbols, ¬ SizeText size symbols) :
    Spoils line (.invalidSize size)
  | unexpectedField {name : Option String} {code size field : List Char} {symbols : Nat}
    {later : List (List Char)} (h : Parts line name (code :: size :: field :: later))
    (hsize : SizeText size symbols) : Spoils line (.unexpectedField field)

/-- the name that an entry keeps -/
def keptName (name : Option (List Char)) : Option String :=
  (name.filter fun n => !n.isEmpty).map String.ofList

theorem keptName_of_ne {name : List Char} (h : name ≠ []) :
    keptName (some name) = some (String.ofList name) := by
  have hkept : (some name).filter (fun n => !n.isEmpty) = some name :=
    Option.filter_eq_some_iff.mpr ⟨rfl, by simp [h]⟩
  rw [keptName, hkept]
  rfl

/-- every line has just one name and one list of fields -/
theorem parts_iff {line : List Char} {name : Option String} {texts : List (List Char)} :
    Parts line name texts ↔
      keptName (splitName line).1 = name ∧ fields (splitName line).2 = texts := by
  constructor
  · intro h
    cases h with
    | bare h hfields =>
      have hcut : cutAt? nameMark line = none := cutAt?_eq_none_iff.mpr h
      rw [splitName, hcut]
      exact ⟨rfl, spaced_iff.mp hfields⟩
    | unnamed h hname hfields =>
      rw [← nameMark, splitName_of_mark h, hname]
      exact ⟨rfl, spaced_iff.mp hfields⟩
    | named h hname hfields =>
      rw [← nameMark, splitName_of_mark h]
      exact ⟨keptName_of_ne hname, spaced_iff.mp hfields⟩
  · rintro ⟨rfl, rfl⟩
    cases hcut : cutAt? nameMark line with
    | none =>
      rw [splitName, hcut]
      exact .bare (cutAt?_eq_none_iff.mp hcut) (spaced_iff.mpr rfl)
    | some parts =>
      obtain ⟨before, after⟩ := parts
      obtain ⟨rfl, hnot⟩ := cutAt?_eq_some_iff.mp hcut
      rw [splitName_of_mark hnot]
      by_cases hname : trim before = []
      · rw [hname]
        exact .unnamed hnot hname (spaced_iff.mpr rfl)
      · rw [keptName_of_ne hname]
        exact .named hnot hname (spaced_iff.mpr rfl)

theorem readLine_eq_ok_iff_spells {line : List Char × Nat} {e : Entry} :
    readLine line = .ok e ↔ Spells line e := by
  obtain ⟨line, number⟩ := line
  rw [readLine_eq_ok_iff, entryOfFields_eq_ok_iff]
  constructor
  · rintro ⟨⟨hname, hnumber⟩, sizes, htexts, hsizes⟩
    exact ⟨⟨sizes, parts_iff.mpr ⟨hname.symm, htexts⟩, sizeFields_iff.mpr hsizes⟩, hnumber⟩
  · rintro ⟨⟨sizes, hparts, hsizes⟩, hnumber⟩
    obtain ⟨hname, htexts⟩ := parts_iff.mp hparts
    exact ⟨⟨hname.symm, hnumber⟩, sizes, htexts, sizeFields_iff.mp hsizes⟩

/-- a line is well-formed if it spells an entry, under any number -/
theorem exists_spells_iff (line : List Char × Nat) : (∃ e, Spells line e) ↔ WellFormed line.1 := by
  constructor
  · rintro ⟨e, ⟨sizes, hparts, hsizes⟩, _⟩
    exact ⟨e.name, _, sizes, e.symbols, hparts, hsizes⟩
  · rintro ⟨name, code, sizes, symbols, hparts, hsizes⟩
    refine ⟨⟨name, String.ofList code, symbols, line.2⟩, ⟨sizes, ?_, hsizes⟩, rfl⟩
    rw [String.toList_ofList]
    exact hparts

theorem count?_eq_none_iff {text : List Char} :
    Decimal.count? text = none ↔ ∀ symbols, ¬ SizeText text symbols := by
  simp only [sizeText_iff, Option.eq_none_iff_forall_ne_some, ne_eq]

theorem entryOfFields_eq_error_iff {line : List Char} {number : Nat} {fault : LineFault} :
    entryOfFields (splitName line).1 number (fields (splitName line).2) = .error fault ↔
      Spoils line fault := by
  constructor
  · intro h
    have hparts : Parts line (keptName (splitName line).1) (fields (splitName line).2) :=
      parts_iff.mpr ⟨rfl, rfl⟩
    generalize fields (splitName line).2 = texts at h hparts
    unfold entryOfFields at h
    split at h
    · cases h
      exact .missingCode hparts
    · split at h
      · cases h
      · split at h
        · next hsize =>
          cases h
          exact .invalidSize hparts (count?_eq_none_iff.mp hsize)
        · cases h
        · next hsize =>
          cases h
          exact .unexpectedField hparts (sizeText_iff.mpr hsize)
  · intro h
    cases h with
    | missingCode h => rw [(parts_iff.mp h).2, entryOfFields]
    | invalidSize h hsize =>
      rw [(parts_iff.mp h).2]
      simp only [entryOfFields, count?_eq_none_iff.mpr hsize]
    | unexpectedField h hsize =>
      rw [(parts_iff.mp h).2]
      simp only [entryOfFields, sizeText_iff.mp hsize]

theorem readLine_eq_error_iff {line : List Char × Nat} {e : SourceError} :
    readLine line = .error e ↔ ∃ fault, Spoils line.1 fault ∧ e = .badLine line.2 fault := by
  have hspoils : ∀ fault, Spoils line.1 fault ↔
      entryOfFields (splitName line.1).1 line.2 (fields (splitName line.1).2) = .error fault :=
    fun _ => entryOfFields_eq_error_iff.symm
  simp only [hspoils]
  unfold readLine
  cases hsplit : splitName line.1 with
  | mk name text =>
    cases hentry : entryOfFields name line.2 (fields text) with
    | error fault => simp [hentry, eq_comm]
    | ok entry => simp [hentry]

/-! ## listings -/

/-- the lines of a text that are kept, trimmed and with their numbers, in order: those between line
feeds that are neither empty nor a comment when trimmed -/
structure KeptLines (content : List Char) (lines : List (List Char × Nat)) : Prop where
  mem_iff : ∀ line number, (line, number) ∈ lines ↔
    (1 ≤ number ∧ ∃ piece, (content.splitOn '\n')[number - 1]? = some piece ∧ trim piece = line) ∧
      line ≠ [] ∧ line.head? ≠ some '#'
  increasing : lines.Pairwise fun line later => line.2 < later.2

theorem isKept_iff {line : List Char} :
    isKept line = true ↔ line ≠ [] ∧ line.head? ≠ some '#' := by
  cases line with
  | nil => simp [isKept]
  | cons c line => simp [isKept, commentMark]

theorem pairwise_numberedLines (content : List Char) :
    (numberedLines content).Pairwise fun line later => line.2 < later.2 := by
  rw [← List.pairwise_map (f := Prod.snd), numberedLines, List.zipIdx_map_snd]
  exact List.pairwise_lt_range' 1 Nat.one_pos

theorem keptLines_spec (content : List Char) : KeptLines content (keptLines content) where
  mem_iff := by
    intro line number
    rw [keptLines, List.mem_filter, isKept_iff, numberedLines,
      List.mk_mem_zipIdx_iff_le_and_getElem?_sub, List.getElem?_map, Option.map_eq_some_iff]
  increasing := (pairwise_numberedLines content).filter _

/-! ## lines of files -/

def withoutReturn (line : List Char) : List Char :=
  if line.getLast? = some '\r' then line.dropLast else line

/-- the lines that pieces between line feeds make: a carriage return before a line feed belongs to
the end of the line, and an empty piece at the very end is no line -/
def linesOfPieces : List (List Char) → List (List Char)
  | [] => []
  | [last] => if last = [] then [] else [last]
  | piece :: later => withoutReturn piece :: linesOfPieces later

def sourceLines (content : List Char) : List (List Char) := linesOfPieces (content.splitOn '\n')

theorem trim_withoutReturn (line : List Char) : trim (withoutReturn line) = trim line := by
  unfold withoutReturn
  split
  · next h =>
    obtain ⟨before, rfl⟩ := List.getLast?_eq_some_iff.mp h
    rw [List.dropLast_concat]
    exact (trim_append_blank before rfl).symm
  · rfl

/-- which pieces are kept does not depend on how the lines end -/
theorem filter_linesOfPieces (pieces : List (List Char)) (k : Nat) :
    (((linesOfPieces pieces).map trim).zipIdx k).filter (fun line => isKept line.1) =
      ((pieces.map trim).zipIdx k).filter fun line => isKept line.1 := by
  fun_induction linesOfPieces pieces generalizing k with
  | case1 => rfl
  | case2 => rfl
  | case3 => rfl
  | case4 piece later _ ih =>
    rw [List.map_cons, List.map_cons, List.zipIdx_cons, List.zipIdx_cons, List.filter_cons,
      List.filter_cons, trim_withoutReturn, ih]

theorem keptLines_eq_sourceLines (content : List Char) : keptLines content =
    (((sourceLines content).map trim).zipIdx 1).filter fun line => isKept line.1 :=
  (filter_linesOfPieces (content.splitOn '\n') 1).symm

example : sourceLines "a\r\n\nb\r".toList = ["a".toList, [], "b\r".toList] := by decide

/-! ## whole listings -/

theorem increasing_of_spells {lines : List (List Char × Nat)} {es : List Entry}
    (hlines : lines.Pairwise fun line later => line.2 < later.2)
    (h : List.Forall₂ Spells lines es) : es.Pairwise fun e later => e.line < later.line := by
  have hnumbers : lines.map Prod.snd = es.map Entry.line :=
    map_eq_map_iff_forall₂.mpr (h.imp fun _ _ hspells => hspells.line_eq.symm)
  rw [← List.pairwise_map (f := Prod.snd), hnumbers, List.pairwise_map] at hlines
  exact hlines

/-- **A listing is read exactly if every line that is kept is well-formed**, and then there is one
entry for each of them in order; otherwise the first one that is not is reported under its number,
and nothing else. -/
theorem listing_format (content : String) : ∃ lines, KeptLines content.toList lines ∧
    lines = (((sourceLines content.toList).map trim).zipIdx 1).filter (fun line => isKept line.1) ∧
    ((∃ es, read content = .ok es) ↔ ∀ line ∈ lines, WellFormed line.1) ∧
    (∀ es, read content = .ok es ↔ List.Forall₂ Spells lines es) ∧
    (∀ es, read content = .ok es → (es.Pairwise fun e later => e.line < later.line) ∧
      ∀ e ∈ es, e.code.toList ≠ [] ∧ ∀ c ∈ e.code.toList, isBlank c = false) ∧
    ∀ e, read content = .error e ↔ FirstFault (fun line => WellFormed line.1)
      (fun _ line => ∃ fault, Spoils line.1 fault ∧ e = .badLine line.2 fault) lines := by
  have hread : ∀ es, read content = .ok es ↔
      List.Forall₂ Spells (keptLines content.toList) es := by
    intro es
    rw [read, readChars, mapM_eq_ok_iff]
    simp only [readLine_eq_ok_iff_spells]
  have hkept := keptLines_spec content.toList
  refine ⟨keptLines content.toList, hkept, keptLines_eq_sourceLines _, ?_, hread, ?_, ?_⟩
  · simp only [hread, exists_forall₂_iff, exists_spells_iff]
  · intro es hes
    refine ⟨increasing_of_spells hkept.increasing ((hread es).mp hes), fun e he => ?_⟩
    have hplain := plain_of_read hes e he
    exact ⟨hplain.code_ne, hplain.code_field⟩
  · intro e
    rw [read, readChars, mapM_eq_error_iff]
    simp only [readLine_eq_error_iff, readLine_eq_ok_iff_spells, exists_spells_iff]

end Holdout.Listing
