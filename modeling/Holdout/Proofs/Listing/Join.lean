import Holdout.Proofs.Code.Breaks
import Holdout.Proofs.Listing.Format

/-!
# Listings one after the other

A text is read line by line, and a line is read alike wherever it stands.  So two texts joined by a
line feed are read one after the other, with the second one's lines counted on, and lines that are
not kept can be put in anywhere.

* `Renumbered R`        two readings that differ in line numbers only, which are related by `R`;
* `renumbered_mapM`     numbered lines are read alike if their texts are the same;
* `keptLines_join`      the lines of a joined text;
* `Padded`              lines with blank lines and comments put in;
* `listing_joins`       the reading of a joined text and of a padded one.
-/

namespace Holdout.Listing

open Text List

/-! ## other line numbers -/

/-- the same entries, or the same fault, on lines whose numbers are related by `R` -/
inductive Renumbered (R : Nat → Nat → Prop) :
    Except SourceError (List Entry) → Except SourceError (List Entry) → Prop
  | ok {es fs : List Entry}
    (h : Forall₂ (fun e f => ∃ number, R e.line number ∧ f = { e with line := number }) es fs) :
    Renumbered R (.ok es) (.ok fs)
  | error {line number : Nat} {fault : LineFault} (h : R line number) :
    Renumbered R (.error (.badLine line fault)) (.error (.badLine number fault))

variable {R : Nat → Nat → Prop}

theorem Renumbered.exists_of_error {e : SourceError} {y : Except SourceError (List Entry)}
    (h : Renumbered R (.error e) y) : ∃ line number fault,
      R line number ∧ e = .badLine line fault ∧ y = .error (.badLine number fault) := by
  cases h with
  | error hR => exact ⟨_, _, _, hR, rfl, rfl⟩

theorem Renumbered.eq_of_ok {d : Nat} {es : List Entry} {y : Except SourceError (List Entry)}
    (h : Renumbered (fun n number => number = n + d) (.ok es) y) :
    y = .ok (es.map fun e => { e with line := e.line + d }) := by
  cases h with
  | @ok _ fs h =>
    rw [eq_comm, Except.ok.injEq, ← map_id fs, map_eq_map_iff_forall₂]
    refine h.imp fun e f hf => ?_
    obtain ⟨number, rfl, rfl⟩ := hf
    rfl

theorem Spells.move {line : List Char} {n number : Nat} {e : Entry} (h : Spells (line, n) e) :
    Spells (line, number) { e with line := number } :=
  ⟨h.fields, rfl⟩

theorem renumbered_mapM {lines lines' : List (List Char × Nat)}
    (h : Forall₂ (fun line line' => line.1 = line'.1 ∧ R line.2 line'.2) lines lines') :
    Renumbered R (lines.mapM readLine) (lines'.mapM readLine) := by
  induction h with
  | nil => exact .ok .nil
  | @cons line line' lines lines' hline _ ih =>
    obtain ⟨text, n⟩ := line
    obtain ⟨text', number⟩ := line'
    obtain ⟨rfl, hR⟩ : text = text' ∧ R n number := hline
    rw [mapM_cons, mapM_cons]
    generalize lines.mapM readLine = later, lines'.mapM readLine = later' at ih
    cases hread : readLine (text, n) with
    | error e =>
      -- the fault does not depend on the number
      obtain ⟨fault, hspoils, rfl⟩ := readLine_eq_error_iff.mp hread
      have hread' : readLine (text, number) = .error (.badLine number fault) :=
        readLine_eq_error_iff.mpr ⟨fault, hspoils, rfl⟩
      rw [hread']
      exact .error hR
    | ok e =>
      have hspells := readLine_eq_ok_iff_spells.mp hread
      have hread' : readLine (text, number) = .ok { e with line := number } :=
        readLine_eq_ok_iff_spells.mpr hspells.move
      rw [hread']
      cases ih with
      | error h => exact .error h
      | ok h => exact .ok (.cons ⟨number, hspells.line_eq ▸ hR, rfl⟩ h)

/-! ## one text after another -/

/-- the number of lines that stand before a text that is put behind another one and a line feed -/
def linesBefore (a : List Char) : Nat := 1 + a.count '\n'

theorem numberedLines_join (as bs : List Char) : numberedLines (as ++ '\n' :: bs) =
    numberedLines as ++ (numberedLines bs).map (Prod.map id (· + linesBefore as)) := by
  have hlength : ((as.splitOn '\n').map trim).length = linesBefore as := by
    rw [length_map, Code.length_splitOn_feed, Nat.add_comm, linesBefore]
  rw [numberedLines, splitOn_append_cons, map_append, zipIdx_append, hlength, Nat.add_comm 1,
    ← map_snd_add_zipIdx_eq_zipIdx]
  rfl

theorem keptLines_join (as bs : List Char) : keptLines (as ++ '\n' :: bs) =
    keptLines as ++ (keptLines bs).map (Prod.map id (· + linesBefore as)) := by
  rw [keptLines, numberedLines_join, filter_append, filter_map]
  rfl

theorem readChars_join (as bs : List Char) : readChars (as ++ '\n' :: bs) =
    readChars as >>= fun es =>
      ((keptLines bs).map (Prod.map id (· + linesBefore as))).mapM readLine >>= fun fs =>
        pure (es ++ fs) := by
  rw [readChars, keptLines_join, mapM_append]
  rfl

theorem renumbered_below (bs : List Char) (d : Nat) :
    Renumbered (fun n number => number = n + d) (readChars bs)
      (((keptLines bs).map (Prod.map id (· + d))).mapM readLine) := by
  refine renumbered_mapM (forall₂_map_right_iff.mpr (forall₂_same.mpr ?_))
  intro line _
  exact ⟨rfl, rfl⟩

/-! ## lines put in -/

/-- nothing, white space only or a comment -/
def Skipped (line : List Char) : Prop := trim line = [] ∨ (trim line).head? = some '#'

theorem isKept_eq_false_iff {line : List Char} : isKept (trim line) = false ↔ Skipped line := by
  rw [← Bool.not_eq_true, isKept_iff, Skipped]
  tauto

/-- the same lines, but for white space around them, and any number of lines put in that are blank
or comments -/
inductive Padded : List (List Char) → List (List Char) → Prop
  | nil : Padded [] []
  | line {line line' : List Char} {lines lines' : List (List Char)} (h : trim line = trim line')
    (hlater : Padded lines lines') : Padded (line :: lines) (line' :: lines')
  | skipped {line : List Char} {lines lines' : List (List Char)} (h : Skipped line)
    (hlater : Padded lines lines') : Padded lines (line :: lines')

/-- the lines that are kept stay in order, and none of them moves up -/
theorem Padded.forall₂_kept {lines lines' : List (List Char)} (h : Padded lines lines')
    {k k' : Nat} (hk : k ≤ k') :
    Forall₂ (fun line line' => line.1 = line'.1 ∧ line.2 ≤ line'.2)
      (((lines.map trim).zipIdx k).filter fun line => isKept line.1)
      (((lines'.map trim).zipIdx k').filter fun line => isKept line.1) := by
  induction h generalizing k k' with
  | nil => exact .nil
  | @line line line' lines lines' h _ ih =>
    rw [map_cons, map_cons, zipIdx_cons, zipIdx_cons, filter_cons, filter_cons, ← h]
    split
    · exact .cons ⟨rfl, hk⟩ (ih (Nat.succ_le_succ hk))
    · exact ih (Nat.succ_le_succ hk)
  | @skipped line lines lines' h _ ih =>
    rw [map_cons, zipIdx_cons, filter_cons_of_neg (by simp [isKept_eq_false_iff.mpr h])]
    exact ih (Nat.le_succ_of_le hk)

theorem Padded.renumbered {content content' : String}
    (h : Padded (sourceLines content.toList) (sourceLines content'.toList)) :
    Renumbered (· ≤ ·) (read content) (read content') := by
  rw [read, read, readChars, readChars, keptLines_eq_sourceLines, keptLines_eq_sourceLines]
  exact renumbered_mapM (h.forall₂_kept le_rfl)

/-- **Joined texts are read one after the other.**  The first fault is that of the first text, or
else that of the second one counted on, and without a fault there are the entries of the first text
and then those of the second one counted on.  Blank lines and comments that are put into a text
change line numbers only, and move no line up. -/
theorem listing_joins (a b : String) :
    (∀ e, read a = .error e → read (a ++ "\n" ++ b) = .error e) ∧
    (∀ es e, read a = .ok es → read b = .error e → ∃ line fault, e = .badLine line fault ∧
      read (a ++ "\n" ++ b) = .error (.badLine (line + (1 + a.toList.count '\n')) fault)) ∧
    (∀ es fs, read a = .ok es → read b = .ok fs → read (a ++ "\n" ++ b) =
      .ok (es ++ fs.map fun e => { e with line := e.line + (1 + a.toList.count '\n') })) ∧
    (Padded (sourceLines a.toList) (sourceLines b.toList) →
      Renumbered (· ≤ ·) (read a) (read b)) := by
  have hjoin : read (a ++ "\n" ++ b) = readChars (a.toList ++ '\n' :: b.toList) := by
    rw [read, String.toList_append, String.toList_append, append_assoc]
    rfl
  have hbelow : Renumbered _ (read b) _ := renumbered_below b.toList (linesBefore a.toList)
  rw [hjoin, readChars_join]
  refine ⟨fun e ha => ?_, fun es e ha hb => ?_, fun es fs ha hb => ?_, Padded.renumbered⟩
  · rw [show readChars a.toList = _ from ha]
    rfl
  · rw [hb] at hbelow
    obtain ⟨line, number, fault, rfl, rfl, hfault⟩ := hbelow.exists_of_error
    rw [show readChars a.toList = _ from ha, hfault]
    exact ⟨line, fault, rfl, rfl⟩
  · rw [hb] at hbelow
    rw [show readChars a.toList = _ from ha, hbelow.eq_of_ok]
    rfl

/-- a comment that ends in a carriage return, one machine and an empty line -/
def upperText : String := "# first\r\nx: 1RZ 2\n"

/-- blank lines around a machine and a comment behind it -/
def paddedText : String := "\t\nx: 1RZ 2\r\n\n#: 1RB"

def lowerText : String := "1RZ\n"

/-- a name without a code on the second line -/
def badText : String := "\n y :\n1RZ two"

theorem listing_joins_texts :
    read (upperText ++ "\n" ++ lowerText) =
      .ok [⟨some "x", "1RZ", some 2, 2⟩, ⟨none, "1RZ", none, 4⟩] ∧
    read (upperText ++ "\n" ++ badText) = .error (.badLine 5 .missingCode) ∧
    read (badText ++ "\n" ++ upperText) = .error (.badLine 2 .missingCode) ∧
    Renumbered (· ≤ ·) (read "x: 1RZ 2") (read paddedText) := by
  have hupper : read upperText = .ok [⟨some "x", "1RZ", some 2, 2⟩] := by decide
  have hlower : read lowerText = .ok [⟨none, "1RZ", none, 1⟩] := by decide
  have hbad : read badText = .error (.badLine 2 .missingCode) := by decide
  have hcount : upperText.toList.count '\n' = 2 := by decide
  have hpadded : Padded (sourceLines "x: 1RZ 2".toList) (sourceLines paddedText.toList) := by
    rw [show sourceLines "x: 1RZ 2".toList = ["x: 1RZ 2".toList] by decide,
      show sourceLines paddedText.toList =
        ["\t".toList, "x: 1RZ 2".toList, [], "#: 1RB".toList] by decide]
    exact .skipped (.inl (by decide)) (.line rfl
      (.skipped (.inl (by decide)) (.skipped (.inr (by decide)) .nil)))
  refine ⟨?_, ?_, (listing_joins badText upperText).1 _ hbad,
    (listing_joins "x: 1RZ 2" paddedText).2.2.2 hpadded⟩
  · rw [(listing_joins upperText lowerText).2.2.1 _ _ hupper hlower, hcount]
    rfl
  · obtain ⟨line, fault, heq, hjoined⟩ :=
      (listing_joins upperText badText).2.1 _ _ hupper hbad
    cases heq
    rw [hjoined, hcount]

end Holdout.Listing
