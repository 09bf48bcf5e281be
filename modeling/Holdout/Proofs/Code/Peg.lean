import Holdout.Proofs.Code.Rejects
import Holdout.Proofs.Peg
import Holdout.Proofs.Text.Pieces

/-!
# The layout as a parsing expression grammar

The layout of a code has a grammar, and what the grammar makes of a text is what the layout makes
of it: the blocks are those between the underscores, each is cut from its left end, and the
furthest rule that was tried in vain is the part that the first broken block lacks.

* `Rule`, `grammar`    the grammar of machine codes;
* `blocksOf`           the specs of every block, read off the trees of a parse;
* `Chunk`, `Chunks`    what a block is cut into;
* `Stuck`              where a parse can only end in a refusal, and which one it is;
* `specs_read`, `specs_stuck`   what is made of a block, and `later_read`, `later_stuck` of the
                       blocks after the first;
* `Misfit.Reports`     what a misfit says of a refused parse;
* `layout_is_parsed`   the parses of a text and its layout.

Until a spec breaks off, no attempt is made past the place that a parse has reached; the attempt
to read its missing part is then the furthest one and stays.
-/

namespace Holdout.Code

open Peg

/-! ## the grammar -/

inductive Rule where
  | machineCode
  | state
  | spec
  | undefined
  | instruction
  | write
  | shift
  | jump
  | cell
  | eoi
  deriving DecidableEq

namespace Rule

/-- a separator and the block after it -/
def later : Expr Rule := .seq (.terminal (.text [separator])) (.rule state)

def body : Rule → Expr Rule
  | machineCode => .seq (.terminal .startOfInput)
      (.seq (.rule state) (.seq (.many later) (.rule eoi)))
  | state => .many (.rule spec)
  | spec => .choice (.rule undefined) (.rule instruction)
  | undefined => .terminal (.text placeholder)
  | instruction => .seq (.rule write) (.seq (.rule shift) (.rule jump))
  | write => .rule cell
  | shift => .rule cell
  | jump => .rule cell
  | cell => .seq (.not (.terminal (.text [separator]))) (.terminal .any)
  | eoi => .terminal .endOfInput

def silent : Rule → Bool
  | spec => true
  | cell => true
  | _ => false

/-- one character, with a name -/
def IsField (r : Rule) : Prop := r.body = .rule cell ∧ r.silent = false

end Rule

def grammar : Grammar Rule := ⟨Rule.body, Rule.silent⟩

/-- what an expression of the grammar makes of the rest of a text -/
abbrev Reads (e : Expr Rule) (s : State Rule) (result : Result Rule) : Prop :=
  Runs grammar .reading e s result

/-! ## reading off the trees -/

/-- the character of a field -/
def fieldChar (tree? : Option (ParseTree Rule)) : Char :=
  (tree?.bind fun tree => tree.text.head?).getD '\x00'

def Spec.ofTree? (tree : ParseTree Rule) : Option Spec :=
  match tree.rule with
  | .undefined => some .undefined
  | .instruction => some (.instruction (fieldChar tree.children[0]?) (fieldChar tree.children[1]?)
      (fieldChar tree.children[2]?))
  | _ => none

/-- the specs of a block; what is no block has none -/
def specsOf? (tree : ParseTree Rule) : Option (List Spec) :=
  if tree.rule = .state then some (tree.children.filterMap Spec.ofTree?) else none

/-- the blocks below the roots of a parse -/
def blocksOf (roots : List (ParseTree Rule)) : List (List Spec) :=
  roots.flatMap fun root => root.children.filterMap specsOf?

/-! ## what a block is cut into -/

/-- three characters: exactly three dashes are the placeholder -/
inductive Chunk : List Char → Spec → Prop
  | undefined : Chunk ['-', '-', '-'] .undefined
  | instruction {write shift jump : Char} (h : [write, shift, jump] ≠ ['-', '-', '-']) :
    Chunk [write, shift, jump] (.instruction write shift jump)

/-- consecutive texts of three characters, from the start of the block to its end -/
def Chunks (block : List Char) (ss : List Spec) : Prop :=
  ∃ texts : List (List Char), block = texts.flatten ∧ List.Forall₂ Chunk texts ss

theorem chunk_iff_cuts {text : List Char} {s : Spec} : Chunk text s ↔ Cuts text s := by
  constructor
  · intro h
    cases h with
    | undefined => exact ⟨'-', '-', '-', rfl, rfl⟩
    | instruction hne => exact ⟨_, _, _, rfl, (if_neg hne).symm⟩
  · rintro ⟨write, shift, jump, rfl, rfl⟩
    unfold Spec.ofChars
    split
    · next heq =>
      rw [heq]
      exact .undefined
    · next hne => exact .instruction hne

theorem specs_eq_ok_iff_chunks {block : List Char} {ss : List Spec} :
    specs block = .ok ss ↔ Chunks block ss :=
  specs_eq_ok_iff.trans <| exists_congr fun _ => and_congr_right fun _ =>
    forall₂_congr_of_mem fun _ _ _ => chunk_iff_cuts.symm

/-! ## cells and fields -/

/-- no cell starts here: the text is at its end or at a separator -/
def BlockEnd (rest : List Char) : Prop := ∀ c later, rest = c :: later → c = separator

theorem blockEnd_nil : BlockEnd [] := nofun

theorem blockEnd_cons (later : List Char) : BlockEnd (separator :: later) := by
  intro c later' h
  cases h
  rfl

variable {rest : List Char} {p : Nat} {a : Attempts Rule} {c : Char} {r : Rule}

theorem separator_read {look : Look} : Runs grammar look (.terminal (.text [separator]))
    ⟨separator :: rest, p, a⟩ (.matched ⟨rest, p + 1, a⟩ []) :=
  .test 1 rfl

theorem separator_refused {look : Look} (hc : separator ≠ c) :
    Runs grammar look (.terminal (.text [separator])) ⟨c :: rest, p, a⟩ (.refused a) := by
  refine .test_refused ?_
  rw [Terminal.taken?, List.isPrefixOf_cons_cons, beq_false_of_ne hc]
  rfl

theorem cell_read (hc : separator ≠ c) :
    Reads (.rule .cell) ⟨c :: rest, p, a⟩ (.matched ⟨rest, p + 1, a⟩ []) :=
  .silent rfl (.seq (.not_refused (separator_refused hc)) (.test (t := .any) 1 rfl))

theorem cell_refused (h : BlockEnd rest) :
    Reads (.rule .cell) ⟨rest, p, a⟩ (.refused a) := by
  refine .silent rfl ?_
  cases rest with
  | nil => exact .seq_refused_later (.not_refused (.test_refused rfl)) (.test_refused rfl)
  | cons c later =>
    cases h c later rfl
    exact .seq_refused (.not_matched separator_read)

theorem field_read (hr : r.IsField) (hc : separator ≠ c) :
    Reads (.rule r) ⟨c :: rest, p, a⟩ (.matched ⟨rest, p + 1, a⟩ [.node r [c] []]) := by
  have hbody : Reads (r.body) ⟨c :: rest, p, a⟩ (.matched ⟨rest, p + 1, a⟩ []) := by
    rw [hr.1]
    exact cell_read hc
  have hnode := Runs.node (g := grammar) hr.2 hbody
  rw [Nat.add_sub_cancel_left] at hnode
  exact hnode

theorem field_refused (hr : r.IsField) (h : BlockEnd rest) :
    Reads (.rule r) ⟨rest, p, a⟩ (.refused (a.note a .reading r p)) := by
  refine .noted (g := grammar) hr.2 ?_
  show Reads r.body _ _
  rw [hr.1]
  exact cell_refused h

/-! ## specs -/

theorem undefined_read :
    Reads (.rule .undefined) ⟨placeholder ++ rest, p, a⟩
      (.matched ⟨rest, p + 3, a⟩ [.node .undefined placeholder []]) := by
  have hbody : Reads (Rule.body .undefined) ⟨placeholder ++ rest, p, a⟩
      (.matched ⟨rest, p + 3, a⟩ []) := .test 3 rfl
  have hnode := Runs.node (g := grammar) (r := .undefined) rfl hbody
  rw [Nat.add_sub_cancel_left] at hnode
  exact hnode

theorem undefined_refused (h : placeholder.isPrefixOf rest = false) :
    Reads (.rule .undefined) ⟨rest, p, a⟩ (.refused (a.note a .reading .undefined p)) := by
  refine .noted (g := grammar) rfl (.test_refused ?_)
  rw [Terminal.taken?, h]
  rfl

theorem isField_write : Rule.write.IsField := ⟨rfl, rfl⟩

theorem isField_shift : Rule.shift.IsField := ⟨rfl, rfl⟩

theorem isField_jump : Rule.jump.IsField := ⟨rfl, rfl⟩

variable {write shift jump : Char}

theorem instruction_read (h : separator ∉ [write, shift, jump]) :
    Reads (.rule .instruction) ⟨write :: shift :: jump :: rest, p, a⟩
      (.matched ⟨rest, p + 3, a⟩ [.node .instruction [write, shift, jump]
        [.node .write [write] [], .node .shift [shift] [], .node .jump [jump] []]]) := by
  simp only [List.mem_cons, List.not_mem_nil, or_false, not_or] at h
  obtain ⟨hwrite, hshift, hjump⟩ := h
  have hbody : Reads (Rule.body .instruction) ⟨write :: shift :: jump :: rest, p, a⟩
      (.matched ⟨rest, p + 3, a⟩
        [.node .write [write] [], .node .shift [shift] [], .node .jump [jump] []]) :=
    .seq (field_read isField_write hwrite)
      (.seq (field_read isField_shift hshift) (field_read isField_jump hjump))
  have hnode := Runs.node (g := grammar) (r := .instruction) rfl hbody
  rw [Nat.add_sub_cancel_left] at hnode
  exact hnode

/-- three characters are tried as a placeholder and then, if they are none, as an instruction -/
theorem spec_read (rest : List Char) {text : List Char} {spec : Spec} (h : Chunk text spec)
    (hcells : separator ∉ text) (ha : a.position ≤ p) :
    ∃ a' tree, Reads (.rule .spec) ⟨text ++ rest, p, a⟩ (.matched ⟨rest, p + 3, a'⟩ [tree]) ∧
      a'.position ≤ p ∧ Spec.ofTree? tree = some spec := by
  cases h with
  | undefined =>
    exact ⟨a, _, .silent rfl (.choice_first undefined_read), ha, rfl⟩
  | @instruction write shift jump hne =>
    -- three dashes never get here: the placeholder is tried first
    have hprefix : placeholder.isPrefixOf (write :: shift :: jump :: rest) = false := by
      rw [Bool.eq_false_iff]
      intro hprefix
      obtain ⟨rest', heq⟩ := List.isPrefixOf_iff_prefix.mp hprefix
      cases heq
      exact hne rfl
    exact ⟨_, _, .silent rfl (.choice_second (undefined_refused hprefix) (instruction_read hcells)),
      Attempts.position_note_le a ha .reading .undefined, rfl⟩

/-- less than three characters are no placeholder -/
theorem not_placeholder_of_length_lt (cs : List Char) (h : cs.length < 3) (hend : BlockEnd rest) :
    placeholder.isPrefixOf (cs ++ rest) = false := by
  rw [Bool.eq_false_iff]
  intro hprefix
  obtain ⟨rest', heq⟩ := List.isPrefixOf_iff_prefix.mp hprefix
  have hdash : ∃ later, rest = '-' :: later := by
    match cs, h, heq with
    | [], _, heq => exact ⟨_, heq.symm⟩
    | [_], _, heq =>
      cases heq
      exact ⟨_, rfl⟩
    | [_, _], _, heq =>
      cases heq
      exact ⟨_, rfl⟩
  obtain ⟨later, rfl⟩ := hdash
  exact absurd (hend '-' later rfl) (by decide)

/-- at the end of a block there is no spec, and nothing further on is tried -/
theorem spec_refused (hend : BlockEnd rest) (ha : a.position ≤ p) :
    ∃ a', Reads (.rule .spec) ⟨rest, p, a⟩ (.refused a') ∧ a'.position ≤ p := by
  have hprefix := not_placeholder_of_length_lt [] (Nat.zero_lt_succ 2) hend
  have hundefined := Attempts.position_note_le a ha .reading .undefined
  have hwrite := Attempts.position_note_le (a.note a .reading .undefined p) hundefined .reading
    .write
  exact ⟨_, .silent rfl (.choice_second (undefined_refused hprefix)
    (.noted rfl (.seq_refused (field_refused isField_write hend)))),
    Attempts.position_note_le _ hwrite .reading .instruction⟩

/-! ## blocks that break off -/

def Part.rule : Part → Rule
  | .shift => .shift
  | .jump => .jump

variable {cs block : List Char} {missing : Part} {position : Nat}

theorem instructionBody_broken (h : cs.length = missing.kept) (hcells : separator ∉ cs)
    (hend : BlockEnd rest) (ha : a.position ≤ p) :
    Reads (Rule.body .instruction) ⟨cs ++ rest, p, a⟩
      (.refused ⟨p + missing.kept, [missing.rule], []⟩) := by
  cases missing with
  | shift =>
    obtain ⟨c, rfl⟩ := List.length_eq_one_iff.mp h
    have hrefused := field_refused (p := p + 1) (a := a) isField_shift hend
    -- nothing was tried after the first character yet, so the attempt stands alone
    rw [Attempts.note_of_gt (Nat.lt_succ_of_le ha)] at hrefused
    exact .seq_refused_later (field_read isField_write (List.ne_of_not_mem_cons hcells))
      (.seq_refused hrefused)
  | jump =>
    obtain ⟨c, d, rfl⟩ := List.length_eq_two.mp h
    have hrefused := field_refused (p := p + 2) (a := a) isField_jump hend
    rw [Attempts.note_of_gt (by omega)] at hrefused
    exact .seq_refused_later (field_read isField_write (List.ne_of_not_mem_cons hcells))
      (.seq_refused_later (field_read isField_shift
        (List.ne_of_not_mem_cons (List.not_mem_of_not_mem_cons hcells))) hrefused)

/-- a spec that breaks off is refused where its next part is missing -/
theorem spec_broken (h : cs.length = missing.kept) (hcells : separator ∉ cs)
    (hend : BlockEnd rest) (ha : a.position ≤ p) :
    Reads (.rule .spec) ⟨cs ++ rest, p, a⟩
      (.refused ⟨p + missing.kept, [missing.rule], []⟩) := by
  have hkept := missing.kept_lt
  have hprefix := not_placeholder_of_length_lt cs (by omega) hend
  have hundefined := Attempts.position_note_le a ha .reading .undefined
  exact .silent rfl (.choice_second (undefined_refused hprefix)
    (.refused_of_lt rfl (Nat.lt_add_of_pos_right hkept.1)
      (instructionBody_broken h hcells hend hundefined)))

/-- a cell is left over, and the furthest attempt is past it, for the part that is missing -/
structure Stuck (s : State Rule) (position : Nat) (missing : Part) : Prop where
  left : ∃ c later, s.rest = c :: later ∧ separator ≠ c
  lt : s.position < position
  attempts : s.attempts = ⟨position, [missing.rule], []⟩

/-! ## blocks -/

/-- the first three characters of a block are taken, and there is more of the block after them -/
theorem triple_read (rest : List Char) {later : List Char}
    (hcells : separator ∉ write :: shift :: jump :: later)
    (ha : a.position ≤ p) : separator ∉ later ∧ ∃ a' tree,
      Reads (.rule .spec) ⟨write :: shift :: jump :: (later ++ rest), p, a⟩
        (.matched ⟨later ++ rest, p + 3, a'⟩ [tree]) ∧
      a'.position ≤ p + 3 ∧ Spec.ofTree? tree = some (Spec.ofChars write shift jump) := by
  obtain ⟨hspec, hlater⟩ := not_or.mp (mt List.mem_append.mpr
    (show separator ∉ [write, shift, jump] ++ later from hcells))
  obtain ⟨a', tree, hread, ha', htree⟩ := spec_read (later ++ rest)
    (chunk_iff_cuts.mpr ⟨write, shift, jump, rfl, rfl⟩) hspec ha
  exact ⟨hlater, a', tree, hread, by omega, htree⟩

theorem length_triple (later : List Char) :
    p + (write :: shift :: jump :: later).length = p + 3 + later.length := by
  show p + (later.length + 3) = p + 3 + later.length
  omega

/-- the specs of a block are all taken -/
theorem specs_read {ss : List Spec} (h : specs block = .ok ss) (hcells : separator ∉ block)
    (hend : BlockEnd rest) (ha : a.position ≤ p) :
    ∃ a' trees, Reads (.many (.rule .spec)) ⟨block ++ rest, p, a⟩
        (.matched ⟨rest, p + block.length, a'⟩ trees) ∧
      a'.position ≤ p + block.length ∧ trees.filterMap Spec.ofTree? = ss := by
  -- along the cutting of the block; the attempts stay behind the place that is reached
  fun_induction specs block generalizing p a ss with
  | case1 =>
    cases h
    obtain ⟨a', hrefused, ha'⟩ := spec_refused hend ha
    exact ⟨a', [], .many_none hrefused, ha', rfl⟩
  | case2 => cases h
  | case3 => cases h
  | case4 write shift jump later ss' hss ih =>
    cases h
    obtain ⟨hlater, a₁, tree, hread, ha₁, htree⟩ := triple_read rest hcells ha
    obtain ⟨a₂, trees, hreads, ha₂, rfl⟩ := ih hss hlater ha₁
    rw [length_triple]
    refine ⟨a₂, [tree] ++ trees, .many_more hread hreads, ha₂, ?_⟩
    exact List.filterMap_cons_some htree
  | case5 => cases h

theorem stuck_of_broken (cs : List Char) (h : cs.length = missing.kept) (hcells : separator ∉ cs)
    (hend : BlockEnd rest) (ha : a.position ≤ p) :
    ∃ s trees, Reads (.many (.rule .spec)) ⟨cs ++ rest, p, a⟩ (.matched s trees) ∧
      Stuck s (p + cs.length) missing := by
  have hkept := missing.kept_lt
  refine ⟨_, [], .many_none (spec_broken h hcells hend ha), ?_, ?_, by rw [h]⟩
  · cases cs with
    | nil => exact absurd h.symm (Nat.ne_of_gt hkept.1)
    | cons c cs => exact ⟨c, cs ++ rest, rfl, List.ne_of_not_mem_cons hcells⟩
  · show p < p + cs.length
    omega

/-- the specs of a block are taken up to the one that breaks off -/
theorem specs_stuck (h : specs block = .error missing) (hcells : separator ∉ block)
    (hend : BlockEnd rest) (ha : a.position ≤ p) :
    ∃ s trees, Reads (.many (.rule .spec)) ⟨block ++ rest, p, a⟩ (.matched s trees) ∧
      Stuck s (p + block.length) missing := by
  fun_induction specs block generalizing p a with
  | case1 => cases h
  | case2 c =>
    cases h
    exact stuck_of_broken [c] rfl hcells hend ha
  | case3 c d =>
    cases h
    exact stuck_of_broken [c, d] rfl hcells hend ha
  | case4 => cases h
  | case5 write shift jump later missing' hmissing ih =>
    cases h
    obtain ⟨hlater, a₁, tree, hread, ha₁, _⟩ := triple_read rest hcells ha
    obtain ⟨s, trees, hreads, hstuck⟩ := ih hmissing hlater ha₁
    rw [length_triple]
    exact ⟨s, [tree] ++ trees, .many_more hread hreads, hstuck⟩

theorem state_read {ss : List Spec} (h : specs block = .ok ss) (hcells : separator ∉ block)
    (hend : BlockEnd rest) (ha : a.position ≤ p) :
    ∃ a' tree, Reads (.rule .state) ⟨block ++ rest, p, a⟩
        (.matched ⟨rest, p + block.length, a'⟩ [tree]) ∧
      a'.position ≤ p + block.length ∧ specsOf? tree = some ss := by
  obtain ⟨a', trees, hread, ha', rfl⟩ := specs_read h hcells hend ha
  exact ⟨a', _, .node rfl hread, ha', rfl⟩

theorem state_stuck (h : specs block = .error missing) (hcells : separator ∉ block)
    (hend : BlockEnd rest) (ha : a.position ≤ p) :
    ∃ s trees, Reads (.rule .state) ⟨block ++ rest, p, a⟩ (.matched s trees) ∧
      Stuck s (p + block.length) missing := by
  obtain ⟨s, trees, hread, hstuck⟩ := specs_stuck h hcells hend ha
  exact ⟨s, _, .node rfl hread, hstuck⟩

/-! ## the blocks after the first -/

/-- blocks with a separator in front of each -/
def joined (bs : List (List Char)) : List Char := bs.flatMap (separator :: ·)

theorem blockEnd_joined (bs : List (List Char)) : BlockEnd (joined bs) := by
  cases bs with
  | nil => exact blockEnd_nil
  | cons b bs => exact blockEnd_cons (b ++ joined bs)

theorem intercalate_cons (b : List Char) (bs : List (List Char)) :
    [separator].intercalate (b :: bs) = b ++ joined bs := by
  induction bs generalizing b with
  | nil => rw [List.intercalate_singleton, joined, List.flatMap_nil, List.append_nil]
  | cons b' bs ih =>
    rw [List.intercalate_cons_cons, ih b', List.append_assoc]
    rfl

theorem length_joined_cons (b : List Char) (bs : List (List Char)) :
    (joined (b :: bs)).length = 1 + b.length + (joined bs).length := by
  show ((separator :: b) ++ joined bs).length = _
  rw [List.length_append, List.length_cons, Nat.add_comm b.length]

theorem later_of_stuck {s : State Rule} (h : Stuck s position missing) :
    Reads (.many Rule.later) s (.matched s []) := by
  obtain ⟨rest, p, a⟩ := s
  obtain ⟨c, later, hrest, hc⟩ := h.left
  cases hrest
  exact .many_none (.seq_refused (separator_refused hc))

theorem later_read {bs : List (List Char)} {sss : List (List Spec)}
    (h : List.Forall₂ (fun block ss => specs block = .ok ss) bs sss)
    (hcells : ∀ b ∈ bs, separator ∉ b) (ha : a.position ≤ p) :
    ∃ s trees, Reads (.many Rule.later) ⟨joined bs, p, a⟩ (.matched s trees) ∧
      s.rest = [] ∧ trees.filterMap specsOf? = sss := by
  induction h generalizing p a with
  | nil => exact ⟨_, [], .many_none (.seq_refused (.test_refused rfl)), rfl, rfl⟩
  | @cons b ss bs sss hb _ ih =>
    obtain ⟨hcell, hcells⟩ := List.forall_mem_cons.mp hcells
    obtain ⟨a₁, tree, hread, ha₁, htree⟩ := state_read (p := p + 1) hb hcell (blockEnd_joined bs)
      (Nat.le_succ_of_le ha)
    obtain ⟨s, trees, hreads, hend, rfl⟩ := ih hcells ha₁
    refine ⟨s, [tree] ++ trees, .many_more (.seq separator_read hread) hreads, hend, ?_⟩
    exact List.filterMap_cons_some htree

/-- blocks are taken up to the first that breaks off -/
theorem later_stuck {before after : List (List Char)} (hgood : ∀ b ∈ before, b.length % 3 = 0)
    (h : specs block = .error missing) (hcells : ∀ b ∈ before ++ block :: after, separator ∉ b)
    (ha : a.position ≤ p) :
    ∃ s trees, Reads (.many Rule.later) ⟨joined (before ++ block :: after), p, a⟩
        (.matched s trees) ∧
      Stuck s (p + (joined (before ++ [block])).length) missing := by
  -- the blocks before leave no attempt past their ends, so the last one comes from the broken block
  induction before generalizing p a with
  | nil =>
    obtain ⟨hcell, _⟩ := List.forall_mem_cons.mp hcells
    obtain ⟨s, trees, hread, hstuck⟩ := state_stuck (p := p + 1) h hcell (blockEnd_joined after)
      (Nat.le_succ_of_le ha)
    refine ⟨s, trees ++ [], .many_more (.seq separator_read hread) (later_of_stuck hstuck), ?_⟩
    rw [List.nil_append, length_joined_cons, ← Nat.add_assoc, ← Nat.add_assoc]
    exact hstuck
  | cons b before ih =>
    obtain ⟨hcell, hcells⟩ := List.forall_mem_cons.mp hcells
    obtain ⟨hb, hgood⟩ := List.forall_mem_cons.mp hgood
    obtain ⟨ss, hss⟩ := exists_specs_iff.mpr hb
    obtain ⟨a₁, tree, hread, ha₁, _⟩ := state_read (p := p + 1) hss hcell
      (blockEnd_joined (before ++ block :: after)) (Nat.le_succ_of_le ha)
    obtain ⟨s, trees, hreads, hstuck⟩ := ih hgood hcells ha₁
    refine ⟨s, [tree] ++ trees, .many_more (.seq separator_read hread) hreads, ?_⟩
    rw [List.cons_append, length_joined_cons, ← Nat.add_assoc, ← Nat.add_assoc]
    exact hstuck

/-! ## whole texts -/

theorem eoi_read {s : State Rule} (h : s.rest = []) :
    ∃ tree, Reads (.rule .eoi) s (.matched s [tree]) ∧ specsOf? tree = none := by
  obtain ⟨rest, p, a⟩ := s
  cases h
  exact ⟨_, .node rfl (.test (t := .endOfInput) 0 rfl), rfl⟩

theorem eoi_of_stuck {s : State Rule} (h : Stuck s position missing) :
    Reads (.rule .eoi) s (.refused ⟨position, [missing.rule], []⟩) := by
  obtain ⟨c, later, hrest, _⟩ := h.left
  have htest : Reads (.terminal .endOfInput) s (.refused s.attempts) := by
    refine .test_refused ?_
    rw [Terminal.taken?, hrest]
    rfl
  rw [h.attempts] at htest
  exact .refused_of_lt rfl h.lt htest

theorem start_read (text : List Char) :
    Reads (.terminal .startOfInput) ⟨text, 0, .start⟩ (.matched ⟨text, 0, .start⟩ []) :=
  .test 0 rfl

/-- the first block and the others, none of which has a separator in it -/
theorem exists_splitOn_eq (text : List Char) : ∃ b bs, text.splitOn separator = b :: bs ∧
    text = b ++ joined bs ∧ separator ∉ b ∧ ∀ b' ∈ bs, separator ∉ b' := by
  obtain ⟨b, bs, hsplit⟩ := List.exists_cons_of_ne_nil (blocks_ne_nil text)
  have hcells : ∀ b' ∈ b :: bs, separator ∉ b' := by
    intro b' hb' hmem
    rw [← hsplit] at hb'
    have hne := Text.eq_false_of_mem_splitOnP b' hb' separator hmem
    exact absurd hne (by decide)
  refine ⟨b, bs, hsplit, ?_, List.forall_mem_cons.mp hcells⟩
  rw [← intercalate_cons, ← hsplit]
  exact (List.intercalate_splitOn separator).symm

variable {text : List Char}

theorem exists_parse_of_layout {sss : List (List Spec)} (h : layout text = .ok sss) :
    ∃ s trees, Parses grammar .machineCode text (.matched s trees) ∧ blocksOf trees = sss := by
  obtain ⟨b, bs, hsplit, htext, hcell, hcells⟩ := exists_splitOn_eq text
  have hspecs := layout_eq_ok_iff.mp h
  rw [show text.splitOn '_' = b :: bs from hsplit] at hspecs
  cases hspecs with
  | @cons _ ss _ sss hss hsss =>
    obtain ⟨a, tree, hstate, ha, htree⟩ := state_read (p := 0) (a := .start) hss hcell
      (blockEnd_joined bs) (Nat.le_refl 0)
    obtain ⟨s, trees, hlater, hend, rfl⟩ := later_read hsss hcells ha
    obtain ⟨last, heoi, hlast⟩ := eoi_read hend
    have hbody := Runs.seq (start_read (b ++ joined bs))
      (.seq hstate (.seq hlater heoi))
    rw [← htext] at hbody
    refine ⟨s, _, .node rfl hbody, ?_⟩
    simp [blocksOf, ParseTree.children, htree, hlast]

theorem parses_refused_of_stuck {s s' : State Rule} {trees trees' : List (ParseTree Rule)}
    (hstate : Reads (.rule .state) ⟨text, 0, .start⟩ (.matched s trees))
    (hlater : Reads (.many Rule.later) s (.matched s' trees')) (h : Stuck s' position missing) :
    Parses grammar .machineCode text (.refused ⟨position, [missing.rule], []⟩) :=
  .refused_of_lt rfl (Nat.zero_lt_of_lt h.lt) (.seq_refused_later (start_read text)
    (.seq_refused_later hstate (.seq_refused_later hlater (eoi_of_stuck h))))

theorem parses_refused_of_breaksAt (h : BreaksAt text position missing) :
    Parses grammar .machineCode text (.refused ⟨position, [missing.rule], []⟩) := by
  obtain ⟨b, bs, hsplit, htext, hcell, hcells⟩ := exists_splitOn_eq text
  obtain ⟨before, block, after, hblocks, hgood, hblock, rfl⟩ := h
  have hbroken := specs_eq_error_iff.mpr hblock
  have hcons : b :: bs = before ++ block :: after := hsplit.symm.trans hblocks
  cases before with
  | nil =>
    cases hcons
    obtain ⟨s, trees, hstate, hstuck⟩ := state_stuck (p := 0) (a := .start) hbroken hcell
      (blockEnd_joined bs) (Nat.le_refl 0)
    rw [← htext] at hstate
    rw [Nat.zero_add] at hstuck
    rw [List.nil_append, List.intercalate_singleton]
    exact parses_refused_of_stuck hstate (later_of_stuck hstuck) hstuck
  | cons b' before =>
    rw [List.cons_append] at hcons
    cases hcons
    obtain ⟨hb, hgood⟩ := List.forall_mem_cons.mp hgood
    obtain ⟨ss, hss⟩ := exists_specs_iff.mpr hb
    obtain ⟨a, tree, hstate, ha, _⟩ := state_read (p := 0) (a := .start) hss hcell
      (blockEnd_joined (before ++ block :: after)) (Nat.le_refl 0)
    obtain ⟨s, trees, hlater, hstuck⟩ := later_stuck hgood hbroken hcells ha
    rw [← htext] at hstate
    rw [Nat.zero_add, ← List.length_append, ← intercalate_cons] at hstuck
    exact parses_refused_of_stuck hstate hlater hstuck

/-! ## parses and layouts -/

/-- The parse of a text is refused: what is expected is the part that the misfit lacks, at the place
that it marks. -/
def Misfit.Reports (misfit : Misfit) (text : List Char) : Prop :=
  ∃ a, Parses grammar .machineCode text (.refused a) ∧ a.expected = [misfit.missing.rule] ∧
    a.unexpected = [] ∧ misfit.Marks text a.position

theorem exists_refusal_of_layout {place : Misfit} (h : layout text = .error place) :
    ∃ position, BreaksAt text position place.missing ∧
      Parses grammar .machineCode text (.refused ⟨position, [place.missing.rule], []⟩) := by
  obtain ⟨position, hbreaks, _⟩ := layout_eq_error_iff.mp h
  exact ⟨position, hbreaks, parses_refused_of_breaksAt hbreaks⟩

theorem Part.rule_injective {part part' : Part} (h : part.rule = part'.rule) : part = part' := by
  cases part with
  | shift =>
    cases part' with
    | shift => rfl
    | jump => cases h
  | jump =>
    cases part' with
    | shift => cases h
    | jump => rfl

theorem parses_matched_iff {sss : List (List Spec)} :
    (∃ s trees, Parses grammar .machineCode text (.matched s trees) ∧ blocksOf trees = sss) ↔
      layout text = .ok sss := by
  refine ⟨?_, exists_parse_of_layout⟩
  rintro ⟨s, trees, hparse, rfl⟩
  cases hlayout : layout text with
  | error place =>
    obtain ⟨position, _, hrefused⟩ := exists_refusal_of_layout hlayout
    cases hparse.unique hrefused
  | ok sss =>
    obtain ⟨s', trees', hparse', rfl⟩ := exists_parse_of_layout hlayout
    cases hparse.unique hparse'
    rfl

theorem parses_refused_iff : Parses grammar .machineCode text (.refused a) ↔
    ∃ position missing, BreaksAt text position missing ∧ a = ⟨position, [missing.rule], []⟩ := by
  constructor
  · intro hparse
    cases hlayout : layout text with
    | error place =>
      obtain ⟨position, hbreaks, hrefused⟩ := exists_refusal_of_layout hlayout
      cases hparse.unique hrefused
      exact ⟨position, place.missing, hbreaks, rfl⟩
    | ok sss =>
      obtain ⟨s, trees, hparse', _⟩ := exists_parse_of_layout hlayout
      cases hparse.unique hparse'
  · rintro ⟨position, missing, hbreaks, rfl⟩
    exact parses_refused_of_breaksAt hbreaks

theorem exists_parse (text : List Char) :
    ∃ result, Parses grammar .machineCode text result := by
  cases hlayout : layout text with
  | error place =>
    obtain ⟨position, _, hrefused⟩ := exists_refusal_of_layout hlayout
    exact ⟨_, hrefused⟩
  | ok sss =>
    obtain ⟨s, trees, hparse, _⟩ := exists_parse_of_layout hlayout
    exact ⟨_, hparse⟩

theorem layout_eq_error_iff_reports {place : Misfit} :
    layout text = .error place ↔ place.Reports text := by
  rw [layout_eq_error_iff]
  constructor
  · rintro ⟨position, hbreaks, hmarks⟩
    exact ⟨_, parses_refused_of_breaksAt hbreaks, rfl, rfl, hmarks⟩
  · rintro ⟨a, hparse, hexpected, _, hmarks⟩
    obtain ⟨position, missing, hbreaks, rfl⟩ := parses_refused_iff.mp hparse
    rw [← Part.rule_injective (List.singleton_inj.mp hexpected)]
    exact ⟨position, hbreaks, hmarks⟩

theorem layout_eq_ok_iff_chunks {sss : List (List Spec)} :
    layout text = .ok sss ↔ List.Forall₂ Chunks (text.splitOn '_') sss :=
  layout_eq_ok_iff.trans <| forall₂_congr_of_mem fun _ _ _ => specs_eq_ok_iff_chunks

/-- **The layout of a code is its parse.**  A text is parsed exactly if every block between its
underscores can be cut into texts of three characters, and these are what the trees hold.  A refusal
is at the end of the first other block and expects the part that is missing there, and this is what
is said of a code once it is trimmed. -/
theorem layout_is_parsed (text : List Char) :
    (∃! result, Parses grammar .machineCode text result) ∧
    ((∃ s trees, Parses grammar .machineCode text (.matched s trees)) ↔ Fits text) ∧
    (∀ sss, (∃ s trees, Parses grammar .machineCode text (.matched s trees) ∧
        blocksOf trees = sss) ↔ List.Forall₂ Chunks (text.splitOn '_') sss) ∧
    (∀ sss, layout text = .ok sss ↔ List.Forall₂ Chunks (text.splitOn '_') sss) ∧
    (∀ a, Parses grammar .machineCode text (.refused a) ↔ ∃ position missing,
        BreaksAt text position missing ∧ a = ⟨position, [missing.rule], []⟩) ∧
    (∀ place, layout text = .error place ↔ place.Reports text) ∧
    ∀ code m place, parseTable code m = .error (.misfit place) ↔
      (1 ≤ m ∧ m ≤ 10) ∧ place.Reports (Text.trim code.toList) := by
  have hfits : (∃ s trees, Parses grammar .machineCode text (.matched s trees)) ↔ Fits text := by
    rw [fits_iff]
    constructor
    · rintro ⟨s, trees, hparse⟩
      exact ⟨_, parses_matched_iff.mp ⟨s, trees, hparse, rfl⟩⟩
    · rintro ⟨sss, h⟩
      obtain ⟨s, trees, hparse, _⟩ := exists_parse_of_layout h
      exact ⟨s, trees, hparse⟩
  obtain ⟨result, hparse⟩ := exists_parse text
  refine ⟨⟨result, hparse, fun result' h => h.unique hparse⟩, hfits, fun sss => ?_,
    fun sss => layout_eq_ok_iff_chunks, fun a => parses_refused_iff,
    fun place => layout_eq_error_iff_reports, fun code m place => ?_⟩
  · exact parses_matched_iff.trans layout_eq_ok_iff_chunks
  · rw [parseTable_eq_misfit_iff, layout_eq_error_iff_reports]

end Holdout.Code
