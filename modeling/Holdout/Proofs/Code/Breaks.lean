import Holdout.Proofs.Code.Accepts
import Holdout.Proofs.FirstFault
import Holdout.Proofs.Text.Pieces
import Mathlib.Data.List.TakeWhile

/-!
# Codes whose layout fails

* `CutInto`               a block is so many texts of three characters one after the other;
* `Fits`                  every block can be cut: `fits_iff`, there is a layout;
* `BreaksAt`              the first block whose length is no multiple of three, where it ends and
                          what its last spec lacks;
* `Misfit.Marks`          a misfit counts the lines and the characters up to a place and shows the
                          line that the place is on: `eq_locate_iff`;
* `layout_eq_ok_iff`, `layout_eq_error_iff`   the specs of every block, or the misfit where the
                          first block breaks off.
-/

namespace Holdout.Code

/-! ## blocks -/

/-- a block is made of texts of three characters each -/
def CutInto (block : List Char) (texts : List (List Char)) : Prop :=
  block = texts.flatten ∧ ∀ text ∈ texts, text.length = 3

/-- how many characters there are of a spec that breaks off -/
def Part.kept : Part → Nat
  | .shift => 1
  | .jump => 2

theorem Part.kept_lt (part : Part) : 0 < part.kept ∧ part.kept < 3 := by
  cases part <;> decide

theorem specs_eq_error_iff {block : List Char} {part : Part} :
    specs block = .error part ↔ block.length % 3 = part.kept := by
  have hkept := part.kept_lt
  fun_induction specs block with
  | case1 =>
    refine iff_of_false (ok_ne_error [] part) ?_
    rw [List.length_nil]
    omega
  | case2 c => cases part <;> simp [Part.kept]
  | case3 c d => cases part <;> simp [Part.kept]
  | case4 write shift jump rest ss hss ih =>
    have hlength : (write :: shift :: jump :: rest).length = rest.length + 3 := rfl
    rw [hss] at ih
    rw [hlength, Nat.add_mod_right]
    exact iff_of_false (ok_ne_error _ part) (mt ih.mpr (ok_ne_error ss part))
  | case5 write shift jump rest part' hpart ih =>
    have hlength : (write :: shift :: jump :: rest).length = rest.length + 3 := rfl
    rw [hlength, Nat.add_mod_right]
    exact hpart ▸ ih

theorem exists_specs_iff {block : List Char} :
    (∃ ss, specs block = .ok ss) ↔ block.length % 3 = 0 := by
  cases hspecs : specs block with
  | error part =>
    have hlength := specs_eq_error_iff.mp hspecs
    have hkept := part.kept_lt
    refine iff_of_false ?_ (by omega)
    rintro ⟨ss, hss⟩
    cases hss
  | ok ss =>
    refine iff_of_true ⟨ss, rfl⟩ ?_
    by_contra hne
    have hpart : ∃ part : Part, block.length % 3 = part.kept := by
      rcases (by omega : block.length % 3 = 1 ∨ block.length % 3 = 2) with h | h
      · exact ⟨.shift, h⟩
      · exact ⟨.jump, h⟩
    obtain ⟨part, hpart⟩ := hpart
    rw [specs_eq_error_iff.mpr hpart] at hspecs
    cases hspecs

theorem cutInto_of_cuts {texts : List (List Char)} {ss : List Spec}
    (h : List.Forall₂ Cuts texts ss) : CutInto texts.flatten texts := by
  refine ⟨rfl, fun text htext => ?_⟩
  obtain ⟨s, _, write, shift, jump, rfl, _⟩ := exists_of_mem_left h htext
  rfl

/-- a block can be cut in one way only -/
theorem CutInto.unique {block : List Char} {texts texts' : List (List Char)}
    (h : CutInto block texts) (h' : CutInto block texts') : texts = texts' := by
  have heq : texts.flatten = texts'.flatten := h.1.symm.trans h'.1
  have hlength := congrArg List.length heq
  rw [length_flatten_of_width h.2, length_flatten_of_width h'.2] at hlength
  exact eq_of_flatten_eq heq (by omega) (fun text htext => (h.2 text htext).ge) h'.2

/-! ## layouts -/

/-- every block can be cut into specs -/
def Fits (text : List Char) : Prop := ∀ block ∈ text.splitOn '_', block.length % 3 = 0

/-- the first block of a text that is cut short ends after so many characters, and its last spec
lacks the part -/
def BreaksAt (text : List Char) (position : Nat) (missing : Part) : Prop :=
  FirstFault (fun block => block.length % 3 = 0)
    (fun before block => block.length % 3 = missing.kept ∧
      position = (['_'].intercalate (before ++ [block])).length)
    (text.splitOn '_')

theorem length_intercalate_cons (block : List Char) (before : List (List Char))
    (last : List Char) : (['_'].intercalate (block :: before ++ [last])).length =
      block.length + 1 + (['_'].intercalate (before ++ [last])).length := by
  obtain ⟨next, later, hcons⟩ := List.exists_cons_of_ne_nil
    (List.append_ne_nil_of_right_ne_nil before (List.cons_ne_nil last []))
  rw [List.cons_append, hcons, List.intercalate_cons_cons, List.length_append, List.length_append]
  rfl

theorem layoutFrom_eq_ok_iff {code : List Char} {position : Nat} {bs : List (List Char)}
    {sss : List (List Spec)} : layoutFrom code position bs = .ok sss ↔
      List.Forall₂ (fun block ss => specs block = .ok ss) bs sss := by
  induction bs generalizing position sss with
  | nil =>
    rw [layoutFrom, List.forall₂_nil_left_iff, Except.ok.injEq]
    exact eq_comm
  | cons b bs ih =>
    rw [layoutFrom_cons_iff, List.forall₂_cons_left_iff]
    simp only [ih]

theorem layout_eq_ok_iff {text : List Char} {sss : List (List Spec)} :
    layout text = .ok sss ↔
      List.Forall₂ (fun block ss => specs block = .ok ss) (text.splitOn '_') sss :=
  layoutFrom_eq_ok_iff

theorem fits_iff {text : List Char} : Fits text ↔ ∃ sss, layout text = .ok sss := by
  simp only [layout_eq_ok_iff, exists_forall₂_iff, exists_specs_iff]
  rfl

theorem layoutFrom_cons_eq_error_iff {code : List Char} {position : Nat} {b : List Char}
    {bs : List (List Char)} {misfit : Misfit} :
    layoutFrom code position (b :: bs) = .error misfit ↔
      (∃ missing, specs b = .error missing ∧
        misfit = Misfit.locate code (position + b.length) missing) ∨
      ((∃ ss, specs b = .ok ss) ∧
        layoutFrom code (position + b.length + 1) bs = .error misfit) := by
  rw [layoutFrom]
  cases specs b with
  | error part => simp [eq_comm]
  | ok ss =>
    cases layoutFrom code (position + b.length + 1) bs with
    | error misfit' => simp
    | ok sss => simp

theorem layoutFrom_eq_error_iff {code : List Char} {position : Nat} {bs : List (List Char)}
    {misfit : Misfit} : layoutFrom code position bs = .error misfit ↔
      FirstFault (fun block => block.length % 3 = 0)
        (fun before block => ∃ missing, block.length % 3 = missing.kept ∧ misfit =
          Misfit.locate code (position + (['_'].intercalate (before ++ [block])).length) missing)
        bs := by
  induction bs generalizing position with
  | nil => exact iff_of_false (ok_ne_error [] misfit) not_firstFault_nil
  | cons b bs ih =>
    rw [layoutFrom_cons_eq_error_iff, firstFault_cons_iff, exists_specs_iff, ih]
    simp only [specs_eq_error_iff, List.nil_append, List.intercalate_singleton,
      length_intercalate_cons, Nat.add_assoc]

theorem parseTrimmed_eq_error_iff {m : Nat} {text : List Char} {e : DecodeError} :
    parseTrimmed text m = .error e ↔ (¬(1 ≤ m ∧ m ≤ 10) ∧ e = .alphabetSize m) ∨
      ((1 ≤ m ∧ m ≤ 10) ∧ ((∃ place, layout text = .error place ∧ e = .misfit place) ∨
        ∃ sss, layout text = .ok sss ∧ tableOfSpecs m sss = .error e)) := by
  have hmax : DecodeError.maxSymbols = 10 := rfl
  unfold parseTrimmed
  split
  · next hsize =>
    simp only [Bool.or_eq_true, decide_eq_true_eq] at hsize
    have hbounds : ¬(1 ≤ m ∧ m ≤ 10) := by omega
    simp [hbounds, eq_comm]
  · next hsize =>
    simp only [Bool.or_eq_true, decide_eq_true_eq, not_or, Nat.not_lt] at hsize
    have hbounds : 1 ≤ m ∧ m ≤ 10 := by omega
    cases layout text with
    | error place => simp [hbounds, eq_comm]
    | ok sss => simp [hbounds]

/-! ## lines -/

theorem forall_reverse_bne {cs : List Char} (h : '\n' ∉ cs) :
    ∀ c ∈ cs.reverse, (c != '\n') = true := by
  intro c hc
  rw [bne_iff_ne]
  rintro rfl
  exact h (List.mem_reverse.mp hc)

theorem lastLine_of_not_mem {cs : List Char} (h : '\n' ∉ cs) : lastLine cs = cs := by
  rw [lastLine, List.takeWhile_eq_self_iff.mpr (forall_reverse_bne h), List.reverse_reverse]

theorem lastLine_append_cons {cs : List Char} (h : '\n' ∉ cs) (before : List Char) :
    lastLine (before ++ '\n' :: cs) = cs := by
  rw [lastLine, List.reverse_append, List.reverse_cons, List.append_assoc,
    List.takeWhile_append_of_pos (forall_reverse_bne h), List.singleton_append, List.takeWhile_cons]
  simp

theorem length_splitOn_feed (cs : List Char) :
    (cs.splitOn '\n').length = cs.count '\n' + 1 := by
  induction cs with
  | nil => rfl
  | cons c cs ih =>
    rw [List.splitOn_cons_eq_if_modifyHead, List.count_cons]
    split
    · rw [List.length_cons, ih]
    · rw [List.length_modifyHead, ih]

/-- the last line is the last piece between line feeds, and there are as many pieces before it as
line feeds -/
theorem splitOn_feed (cs : List Char) : ∃ earlier,
    cs.splitOn '\n' = earlier ++ [lastLine cs] ∧ earlier.length = cs.count '\n' := by
  have hlast : ∃ earlier, cs.splitOn '\n' = earlier ++ [lastLine cs] := by
    by_cases hmem : '\n' ∈ cs
    · obtain ⟨as, bs, hreverse, hnot⟩ := List.eq_append_cons_of_mem (List.mem_reverse.mpr hmem)
      have hcs : cs = bs.reverse ++ '\n' :: as.reverse := by
        rw [← List.reverse_reverse cs, hreverse, List.reverse_append, List.reverse_cons,
          List.append_assoc, List.singleton_append]
      have hlater : '\n' ∉ as.reverse := fun h => hnot (List.mem_reverse.mp h)
      refine ⟨bs.reverse.splitOn '\n', ?_⟩
      rw [hcs, lastLine_append_cons hlater, Text.splitOn_append_cons,
        List.splitOn_eq_singleton hlater]
    · exact ⟨[], by rw [List.splitOn_eq_singleton hmem, lastLine_of_not_mem hmem, List.nil_append]⟩
  obtain ⟨earlier, hsplit⟩ := hlast
  refine ⟨earlier, hsplit, ?_⟩
  have hlength := length_splitOn_feed cs
  rw [hsplit, List.length_append, List.length_singleton] at hlength
  omega

theorem splitOn_feed_head (cs : List Char) :
    ∃ later, cs.splitOn '\n' = firstLine cs :: later := by
  induction cs with
  | nil => exact ⟨[], rfl⟩
  | cons c cs ih =>
    obtain ⟨later, hsplit⟩ := ih
    rw [List.splitOn_cons_eq_if_modifyHead, firstLine, List.takeWhile_cons]
    by_cases hc : c = '\n'
    · exact ⟨cs.splitOn '\n', by simp [hc]⟩
    · refine ⟨later, ?_⟩
      simp [hc, hsplit, firstLine]

/-- the line of a misfit is the one that a place of a text is on, its column that of the place, and
the whole line is shown -/
def Misfit.Marks (misfit : Misfit) (text : List Char) (position : Nat) : Prop :=
  ∃ earlier last first later, (text.take position).splitOn '\n' = earlier ++ [last] ∧
    (text.drop position).splitOn '\n' = first :: later ∧ misfit.line = earlier.length + 1 ∧
      misfit.column = last.length + 1 ∧ misfit.text = last ++ first

theorem eq_locate_iff {misfit : Misfit} {text : List Char} {position : Nat} {missing : Part} :
    misfit = Misfit.locate text position missing ↔
      misfit.Marks text position ∧ misfit.missing = missing := by
  obtain ⟨earlier, hsplit, hlength⟩ := splitOn_feed (text.take position)
  obtain ⟨later, hhead⟩ := splitOn_feed_head (text.drop position)
  constructor
  · rintro rfl
    refine ⟨⟨earlier, _, _, later, hsplit, hhead, ?_, rfl, rfl⟩, rfl⟩
    rw [hlength]
    rfl
  · rintro ⟨⟨earlier', last, first, later', hsplit', hhead', hline, hcolumn, htext⟩, rfl⟩
    rw [hsplit] at hsplit'
    rw [hhead] at hhead'
    obtain ⟨hearlier, hlast⟩ := List.append_inj' hsplit' rfl
    cases hearlier
    cases hlast
    cases hhead'
    obtain ⟨line, column, shown, missing⟩ := misfit
    rw [Misfit.locate, ← hlength, ← hline, ← hcolumn, ← htext]

/-- a code without a layout has a misfit that marks the end of the first block that breaks off -/
theorem layout_eq_error_iff {text : List Char} {misfit : Misfit} :
    layout text = .error misfit ↔
      ∃ position, BreaksAt text position misfit.missing ∧ misfit.Marks text position := by
  rw [layout, layoutFrom_eq_error_iff]
  simp only [Nat.zero_add, eq_locate_iff]
  constructor
  · rintro ⟨before, block, after, hsplit, hgood, missing, hmissing, hmarks, rfl⟩
    exact ⟨_, ⟨before, block, after, hsplit, hgood, hmissing, rfl⟩, hmarks⟩
  · rintro ⟨_, ⟨before, block, after, hsplit, hgood, hmissing, rfl⟩, hmarks⟩
    exact ⟨before, block, after, hsplit, hgood, _, hmissing, hmarks, rfl⟩

end Holdout.Code
