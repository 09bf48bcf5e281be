import Holdout.Text.Blank

/-!
# Trimmed texts and fields

* `Trimmed`              a text with no white space at its ends: what trimming gives
                         (`trimmed_trim`) and what it leaves alone (`trim_of_trimmed`);
* `cutAt?_eq_some_iff`   a text is cut at the first occurrence of a mark;
* `splitOn_append_cons`  and into pieces at all of them;
* `fields_append_cons`, `fields_of_forall`, `mem_fields`   white space divides the fields, a text
                         without any is one field, and every field is such a text;
* `Spaced`               a text as fields with white space between them; `spaced_iff`, these are the
                         fields of the text.
-/

namespace Holdout.Text

/-! ## trimming -/

/-- a text is empty, or neither its first nor its last character is white space -/
structure Trimmed (cs : List Char) : Prop where
  head : ∀ c, cs.head? = some c → isBlank c = false
  last : ∀ c, cs.getLast? = some c → isBlank c = false

theorem trimLeft_of_head {cs : List Char} (h : ∀ c, cs.head? = some c → isBlank c = false) :
    trimLeft cs = cs := by
  cases cs with
  | nil => rfl
  | cons c cs => simp [trimLeft, h c rfl]

theorem head?_trimLeft {cs : List Char} {c : Char} (h : (trimLeft cs).head? = some c) :
    isBlank c = false := by
  have hdrop := List.head?_dropWhile_not isBlank cs
  rw [show cs.dropWhile isBlank = trimLeft cs from rfl, h] at hdrop
  exact hdrop

/-- what is trimmed on the right is white space at the end -/
theorem exists_trimRight_append (cs : List Char) : ∃ blanks, trimRight cs ++ blanks = cs := by
  refine ⟨(cs.reverse.takeWhile isBlank).reverse, ?_⟩
  rw [trimRight, ← List.reverse_append, List.takeWhile_append_dropWhile, List.reverse_reverse]

theorem head?_of_head?_trimRight {cs : List Char} {c : Char}
    (h : (trimRight cs).head? = some c) : cs.head? = some c := by
  obtain ⟨blanks, heq⟩ := exists_trimRight_append cs
  rw [← heq, List.head?_append, h]
  rfl

theorem trimmed_trim (cs : List Char) : Trimmed (trim cs) where
  head := fun _ h => head?_trimLeft (head?_of_head?_trimRight h)
  last := by
    intro c h
    rw [trim, trimRight, List.getLast?_reverse] at h
    exact head?_trimLeft h

theorem trim_of_trimmed {cs : List Char} (h : Trimmed cs) : trim cs = cs := by
  have hlast : trimLeft cs.reverse = cs.reverse := by
    refine trimLeft_of_head fun c hc => h.last c ?_
    rw [← hc, List.head?_reverse]
  rw [trim, trimLeft_of_head h.head, trimRight, ← trimLeft, hlast, List.reverse_reverse]

/-- white space at the end does not count -/
theorem trim_append_blank (cs : List Char) {blank : Char} (h : isBlank blank = true) :
    trim (cs ++ [blank]) = trim cs := by
  have hright : ∀ bs, trimRight (bs ++ [blank]) = trimRight bs := by
    intro bs
    rw [trimRight, List.reverse_append, List.reverse_singleton, List.singleton_append,
      List.dropWhile_cons_of_pos h, trimRight]
  have hblank : trimLeft [blank] = [] := List.dropWhile_cons_of_pos h
  rw [trim, trimLeft, List.dropWhile_append, ← trimLeft, ← trimLeft, hblank, trim]
  split
  · next hempty => rw [List.isEmpty_iff.mp hempty]
  · exact hright _

theorem mem_of_mem_trim {cs : List Char} {c : Char} (h : c ∈ trim cs) : c ∈ cs := by
  obtain ⟨blanks, heq⟩ := exists_trimRight_append (trimLeft cs)
  have hleft : c ∈ trimLeft cs := heq ▸ List.mem_append_left blanks h
  exact (List.dropWhile_sublist isBlank).subset hleft

/-- nothing is trimmed on the left of a text that starts with something else than white space -/
theorem head?_of_head?_trim {cs : List Char} {c : Char}
    (h : ∀ c, cs.head? = some c → isBlank c = false) (htrim : (trim cs).head? = some c) :
    cs.head? = some c := by
  rw [trim, trimLeft_of_head h] at htrim
  exact head?_of_head?_trimRight htrim

theorem trimmed_of_forall {cs : List Char} (h : ∀ c ∈ cs, isBlank c = false) : Trimmed cs where
  head := fun c hc => h c (List.mem_of_head? hc)
  last := fun c hc => h c (List.mem_of_getLast? hc)

theorem Trimmed.append {as bs : List Char} (ha : Trimmed as) (hb : Trimmed bs) :
    Trimmed (as ++ bs) where
  head := by
    intro c hc
    rw [List.head?_append, Option.or_eq_some_iff] at hc
    rcases hc with hc | ⟨_, hc⟩
    · exact ha.head c hc
    · exact hb.head c hc
  last := by
    intro c hc
    rw [List.getLast?_append, Option.or_eq_some_iff] at hc
    rcases hc with hc | ⟨_, hc⟩
    · exact hb.last c hc
    · exact ha.last c hc

/-- white space between two texts is not at an end -/
theorem Trimmed.append_cons {as bs : List Char} (ha : Trimmed as) (hb : Trimmed bs)
    (hane : as ≠ []) (hbne : bs ≠ []) (blank : Char) : Trimmed (as ++ blank :: bs) where
  head := by
    obtain ⟨a, as, rfl⟩ := List.exists_cons_of_ne_nil hane
    exact fun c hc => ha.head c hc
  last := by
    obtain ⟨b, bs, rfl⟩ := List.exists_cons_of_ne_nil hbne
    intro c hc
    rw [List.getLast?_append, List.getLast?_cons_cons, Option.or_of_isSome (by simp)] at hc
    exact hb.last c hc

/-! ## cutting -/

theorem cutAt?_eq_some_iff {mark : Char} {cs before after : List Char} :
    cutAt? mark cs = some (before, after) ↔ cs = before ++ mark :: after ∧ mark ∉ before := by
  constructor
  · intro h
    induction cs generalizing before with
    | nil => cases h
    | cons c cs ih =>
      by_cases hc : c = mark
      · rw [cutAt?, if_pos hc] at h
        cases h
        exact ⟨by rw [hc]; rfl, List.not_mem_nil⟩
      · rw [cutAt?, if_neg hc] at h
        obtain ⟨⟨before', after'⟩, hcut, heq⟩ := Option.map_eq_some_iff.mp h
        cases heq
        obtain ⟨rfl, hnot⟩ := ih hcut
        exact ⟨rfl, List.not_mem_cons_of_ne_of_not_mem (Ne.symm hc) hnot⟩
  · rintro ⟨rfl, hnot⟩
    exact cutAt?_append after hnot

/-- the pieces between marks of two texts with a mark between them -/
theorem splitOn_append_cons (mark : Char) (as bs : List Char) :
    (as ++ mark :: bs).splitOn mark = as.splitOn mark ++ bs.splitOn mark :=
  List.splitOnP_append_cons as bs (beq_self_eq_true mark)

/-! ## fields -/

theorem fields_nil : fields [] = [] := by
  rw [fields, List.splitOnP_nil]
  rfl

/-- white space divides the fields -/
theorem fields_append_cons {blank : Char} (hblank : isBlank blank = true) (as bs : List Char) :
    fields (as ++ blank :: bs) = fields as ++ fields bs := by
  rw [fields, List.splitOnP_append_cons as bs hblank, List.filter_append]
  rfl

theorem fields_cons {blank : Char} (hblank : isBlank blank = true) (cs : List Char) :
    fields (blank :: cs) = fields cs := by
  have h := fields_append_cons hblank [] cs
  rw [fields_nil] at h
  exact h

/-- a text without white space is one field -/
theorem fields_of_forall {cs : List Char} (hne : cs ≠ []) (h : ∀ c ∈ cs, isBlank c = false) :
    fields cs = [cs] := by
  rw [fields, List.splitOnP_eq_singleton h]
  simp [hne]

/-- no piece of a text holds a character that the text is split at -/
theorem eq_false_of_mem_splitOnP {p : Char → Bool} {cs : List Char} :
    ∀ piece ∈ cs.splitOnP p, ∀ c ∈ piece, p c = false := by
  induction cs with
  | nil => simp [List.splitOnP_nil]
  | cons c cs ih =>
    rw [List.splitOnP_cons_eq_if_modifyHead]
    split
    · intro piece hpiece
      rcases List.mem_cons.mp hpiece with rfl | hpiece
      · simp
      · exact ih piece hpiece
    · next hc =>
      obtain ⟨first, later, hsplit⟩ := List.exists_cons_of_ne_nil (List.splitOnP_ne_nil p cs)
      rw [hsplit] at ih ⊢
      intro piece hpiece
      rcases List.mem_cons.mp hpiece with rfl | hpiece
      · intro d hd
        rcases List.mem_cons.mp hd with rfl | hd
        · exact Bool.not_eq_true _ ▸ hc
        · exact ih first List.mem_cons_self d hd
      · exact ih piece (List.mem_cons_of_mem first hpiece)

theorem mem_fields {cs field : List Char} (h : field ∈ fields cs) :
    field ≠ [] ∧ ∀ c ∈ field, isBlank c = false := by
  obtain ⟨hpiece, hne⟩ := List.mem_filter.mp h
  refine ⟨?_, eq_false_of_mem_splitOnP field hpiece⟩
  rintro rfl
  cases hne

/-! ## white space and fields -/

/-- a text as fields: white space may stand anywhere around them, and stands after every field but
the last -/
inductive Spaced : List Char → List (List Char) → Prop
  | none {blanks : List Char} (h : ∀ c ∈ blanks, isBlank c = true) : Spaced blanks []
  | last {blanks field : List Char} (hblanks : ∀ c ∈ blanks, isBlank c = true) (hne : field ≠ [])
    (hfield : ∀ c ∈ field, isBlank c = false) : Spaced (blanks ++ field) [field]
  | more {blanks field rest : List Char} {blank : Char} {later : List (List Char)}
    (hblanks : ∀ c ∈ blanks, isBlank c = true) (hne : field ≠ [])
    (hfield : ∀ c ∈ field, isBlank c = false) (hblank : isBlank blank = true)
    (h : Spaced rest later) : Spaced (blanks ++ (field ++ blank :: rest)) (field :: later)

variable {cs : List Char} {texts : List (List Char)} {c : Char}

theorem fields_append_of_blank {blanks : List Char} (h : ∀ c ∈ blanks, isBlank c = true)
    (cs : List Char) : fields (blanks ++ cs) = fields cs := by
  induction blanks with
  | nil => rfl
  | cons blank blanks ih =>
    rw [List.cons_append, fields_cons (h blank List.mem_cons_self)]
    exact ih fun c hc => h c (List.mem_cons_of_mem blank hc)

theorem fields_of_blank {blanks : List Char} (h : ∀ c ∈ blanks, isBlank c = true) :
    fields blanks = [] := by
  rw [← fields_nil, ← fields_append_of_blank h [], List.append_nil]

theorem fields_eq_of_spaced (h : Spaced cs texts) : fields cs = texts := by
  induction h with
  | none h => exact fields_of_blank h
  | last hblanks hne hfield =>
    rw [fields_append_of_blank hblanks, fields_of_forall hne hfield]
  | more hblanks hne hfield hblank _ ih =>
    rw [fields_append_of_blank hblanks, fields_append_cons hblank, fields_of_forall hne hfield, ih]
    rfl

theorem Spaced.cons_blank (hc : isBlank c = true) (h : Spaced cs texts) :
    Spaced (c :: cs) texts := by
  have hmore : ∀ {blanks : List Char}, (∀ b ∈ blanks, isBlank b = true) →
      ∀ b ∈ c :: blanks, isBlank b = true := fun h => List.forall_mem_cons.mpr ⟨hc, h⟩
  cases h with
  | none h => exact .none (hmore h)
  | last hblanks hne hfield => exact .last (hmore hblanks) hne hfield
  | more hblanks hne hfield hblank h => exact .more (hmore hblanks) hne hfield hblank h

/-- a character that is no white space is a field of its own if white space or nothing follows, and
makes the field that follows one longer otherwise -/
theorem Spaced.exists_cons (hc : isBlank c = false) (h : Spaced cs texts) :
    ∃ texts', Spaced (c :: cs) texts' := by
  have hnone : ∀ b ∈ ([] : List Char), isBlank b = true := fun _ hb => absurd hb List.not_mem_nil
  have hlonger : ∀ {field : List Char}, (∀ d ∈ field, isBlank d = false) →
      ∀ d ∈ c :: field, isBlank d = false := fun h => List.forall_mem_cons.mpr ⟨hc, h⟩
  have hone : ∀ d ∈ [c], isBlank d = false := hlonger fun _ hd => absurd hd List.not_mem_nil
  cases h with
  | none h =>
    cases cs with
    | nil => exact ⟨_, .last hnone (List.cons_ne_nil c []) hone⟩
    | cons b bs =>
      obtain ⟨hb, hbs⟩ := List.forall_mem_cons.mp h
      exact ⟨_, .more hnone (List.cons_ne_nil c []) hone hb (.none hbs)⟩
  | @last blanks field hblanks hne hfield =>
    cases blanks with
    | nil => exact ⟨_, .last hnone (List.cons_ne_nil c field) (hlonger hfield)⟩
    | cons b bs =>
      obtain ⟨hb, hbs⟩ := List.forall_mem_cons.mp hblanks
      exact ⟨_, .more hnone (List.cons_ne_nil c []) hone hb (.last hbs hne hfield)⟩
  | @more blanks field rest _ later hblanks hne hfield hblank h =>
    cases blanks with
    | nil => exact ⟨_, .more hnone (List.cons_ne_nil c field) (hlonger hfield) hblank h⟩
    | cons b bs =>
      obtain ⟨hb, hbs⟩ := List.forall_mem_cons.mp hblanks
      exact ⟨_, .more hnone (List.cons_ne_nil c []) hone hb (.more hbs hne hfield hblank h)⟩

theorem exists_spaced (cs : List Char) : ∃ texts, Spaced cs texts := by
  induction cs with
  | nil => exact ⟨[], .none fun _ hb => absurd hb List.not_mem_nil⟩
  | cons c cs ih =>
    obtain ⟨texts, h⟩ := ih
    cases hc : isBlank c with
    | true => exact ⟨texts, h.cons_blank hc⟩
    | false => exact h.exists_cons hc

/-- the fields of a text are the only ones that it is made of -/
theorem spaced_iff : Spaced cs texts ↔ fields cs = texts := by
  refine ⟨fields_eq_of_spaced, ?_⟩
  rintro rfl
  obtain ⟨texts, h⟩ := exists_spaced cs
  rw [fields_eq_of_spaced h]
  exact h

end Holdout.Text
