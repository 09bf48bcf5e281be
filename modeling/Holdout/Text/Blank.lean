/-!
# White space, trimming and fields

Texts are lists of characters here.  White space is the property White_Space.

* `isBlank`      the twenty-five white space characters;
* `trim`         the text without white space at either end;
* `fields`       the maximal pieces without white space;
* `cutAt?`       the text before and after the first occurrence of a character.
-/

namespace Holdout.Text

/-- the property White_Space -/
def isBlank (c : Char) : Bool :=
  let n := c.toNat
  (9 ≤ n && n ≤ 13) || n == 0x20 || n == 0x85 || n == 0xa0 || n == 0x1680 ||
    (0x2000 ≤ n && n ≤ 0x200a) || n == 0x2028 || n == 0x2029 || n == 0x202f || n == 0x205f ||
    n == 0x3000

/-! ## trimming -/

def trimLeft (cs : List Char) : List Char := cs.dropWhile isBlank

def trimRight (cs : List Char) : List Char := (cs.reverse.dropWhile isBlank).reverse

def trim (cs : List Char) : List Char := trimRight (trimLeft cs)

def trimString (s : String) : String := String.ofList (trim s.toList)

theorem toList_trimString (s : String) : (trimString s).toList = trim s.toList := by
  simp [trimString]

theorem trimLeft_of_forall {cs : List Char} (h : ∀ c ∈ cs, isBlank c = false) :
    trimLeft cs = cs := by
  cases cs with
  | nil => rfl
  | cons c cs => simp [trimLeft, h c List.mem_cons_self]

theorem trim_of_forall {cs : List Char} (h : ∀ c ∈ cs, isBlank c = false) : trim cs = cs := by
  have hreverse : ∀ c ∈ cs.reverse, isBlank c = false := fun c hc => h c (List.mem_reverse.mp hc)
  rw [trim, trimLeft_of_forall h, trimRight, ← trimLeft, trimLeft_of_forall hreverse,
    List.reverse_reverse]

/-! ## fields -/

def fields (cs : List Char) : List (List Char) :=
  (cs.splitOnP isBlank).filter fun field => !field.isEmpty

/-! ## cutting -/

/-- the text before and after the first occurrence of a character, if there is one -/
def cutAt? (mark : Char) : List Char → Option (List Char × List Char)
  | [] => none
  | c :: cs =>
    if c = mark then some ([], cs)
    else (cutAt? mark cs).map fun (before, after) => (c :: before, after)

theorem cutAt?_eq_none_iff {mark : Char} {cs : List Char} :
    cutAt? mark cs = none ↔ mark ∉ cs := by
  induction cs with
  | nil => simp [cutAt?]
  | cons c cs ih =>
    by_cases h : c = mark
    · simp [cutAt?, h]
    · simp [cutAt?, h, ih, Ne.symm h]

theorem cutAt?_append {mark : Char} {before : List Char} (after : List Char)
    (h : mark ∉ before) : cutAt? mark (before ++ mark :: after) = some (before, after) := by
  induction before with
  | nil => simp [cutAt?]
  | cons c before ih =>
    have hc : c ≠ mark := fun e => h (by simp [e])
    have ht : mark ∉ before := fun e => h (by simp [e])
    simp [cutAt?, hc, ih ht]

end Holdout.Text
