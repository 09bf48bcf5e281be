import Mathlib.Data.List.Basic

/-!
# Parsing expression grammars

A grammar gives every rule an expression.  A choice takes its first alternative that matches, a
repetition takes all it can get and never gives any of it back, and a text is looked at ahead
without being taken.

* `Expr`, `Grammar`      expressions over rules, and what each rule stands for;
* `ParseTree`                 what a rule has matched: one tree for every rule that is not silent;
* `Attempts`             the furthest place at which rules were tried in vain, and these rules;
* `Attempts.note`        what a rule adds to them;
* `Runs`, `Parses`       what an expression makes of a text, and what a rule makes of a whole text;
* `Runs.unique`          that is one thing at most.

A text is a list of characters, and places are counted in characters.
-/

namespace Holdout.Peg

/-! ## grammars -/

/-- a test of what stands at a place -/
inductive Terminal where
  | startOfInput
  | endOfInput
  | any
  | text (cs : List Char)

inductive Expr (ρ : Type) where
  | terminal (t : Terminal)
  | rule (r : ρ)
  | seq (e e' : Expr ρ)
  | choice (e e' : Expr ρ)
  | many (e : Expr ρ)
  | not (e : Expr ρ)

structure Grammar (ρ : Type) where
  body : ρ → Expr ρ
  /-- a silent rule makes no tree and is not reported -/
  silent : ρ → Bool

/-- a rule with the text it has matched and the trees of the rules inside -/
inductive ParseTree (ρ : Type) where
  | node (rule : ρ) (text : List Char) (children : List (ParseTree ρ))

namespace ParseTree

variable {ρ : Type}

def rule : ParseTree ρ → ρ
  | node r _ _ => r

def text : ParseTree ρ → List Char
  | node _ cs _ => cs

def children : ParseTree ρ → List (ParseTree ρ)
  | node _ _ trees => trees

end ParseTree

/-! ## failures -/

/-- how a text is looked at: to be taken, or ahead, for what should or should not follow -/
inductive Look where
  | reading
  | positive
  | negative
  deriving DecidableEq

def Look.flip : Look → Look
  | reading => negative
  | positive => negative
  | negative => positive

/-- the furthest place at which a rule was tried in vain, the rules that should have matched there
and those that should not have -/
structure Attempts (ρ : Type) where
  position : Nat
  expected : List ρ
  unexpected : List ρ

namespace Attempts

variable {ρ : Type}

def start : Attempts ρ := ⟨0, [], []⟩

def countAt (a : Attempts ρ) (position : Nat) : Nat :=
  if a.position = position then a.expected.length + a.unexpected.length else 0

/-- of the rules tried in vain at a place those of before stay -/
def kept (before after : Attempts ρ) (position : Nat) (rules : Attempts ρ → List ρ) : List ρ :=
  if after.position = position ∧ before.position = position then
    (rules after).take (rules before).length
  else []

/-- A rule is tried at a place, before which there were some attempts and after which there are
others.  If the rules inside made one attempt there, this one tells more; an attempt further on
stays; otherwise the rule takes the place of those inside. -/
def note (before after : Attempts ρ) (look : Look) (r : ρ) (position : Nat) : Attempts ρ :=
  if after.countAt position = before.countAt position + 1 then after
  else if position < after.position then after
  else
    ⟨position,
      kept before after position expected ++ if look = .negative then [] else [r],
      kept before after position unexpected ++ if look = .negative then [r] else []⟩

theorem note_of_lt {before after : Attempts ρ} {position : Nat} (h : position < after.position)
    (look : Look) (r : ρ) : before.note after look r position = after := by
  rw [note, if_pos h, ite_self]

/-- nothing was tried so far on -/
theorem note_of_gt {a : Attempts ρ} {position : Nat} (h : a.position < position) (r : ρ) :
    a.note a .reading r position = ⟨position, [r], []⟩ := by
  have hkept : ∀ rules, a.kept a position rules = [] := fun rules =>
    if_neg fun hboth => Nat.ne_of_lt h hboth.1
  rw [note, if_neg (Nat.ne_of_lt (Nat.lt_succ_self _)), if_neg (Nat.lt_asymm h), hkept, hkept]
  rfl

theorem position_note_le (before : Attempts ρ) {after : Attempts ρ} {position : Nat}
    (h : after.position ≤ position) (look : Look) (r : ρ) :
    (before.note after look r position).position ≤ position := by
  unfold note
  split
  · exact h
  · split
    · exact h
    · exact Nat.le_refl position

end Attempts

/-! ## runs -/

/-- a place in a text, and the attempts so far -/
structure State (ρ : Type) where
  rest : List Char
  position : Nat
  attempts : Attempts ρ

/-- an expression matches up to a place with some trees, or it does not match -/
inductive Result (ρ : Type) where
  | matched (s : State ρ) (trees : List (ParseTree ρ))
  | refused (attempts : Attempts ρ)

variable {ρ : Type}

/-- how many characters a test takes, if it succeeds -/
def Terminal.taken? (t : Terminal) (s : State ρ) : Option Nat :=
  match t with
  | startOfInput => if s.position = 0 then some 0 else none
  | endOfInput => if s.rest.isEmpty then some 0 else none
  | any => if s.rest.isEmpty then none else some 1
  | text cs => if cs.isPrefixOf s.rest then some cs.length else none

def State.test (s : State ρ) (t : Terminal) : Result ρ :=
  match t.taken? s with
  | some count => .matched ⟨s.rest.drop count, s.position + count, s.attempts⟩ []
  | none => .refused s.attempts

/-- what the run of its body means for a rule: it has a tree when it is read, and the attempt is
noted when it does not turn out as it should -/
def Grammar.close (g : Grammar ρ) (look : Look) (r : ρ) (s : State ρ) (result : Result ρ) :
    Result ρ :=
  if g.silent r then result
  else
    match result with
    | .matched s' trees =>
      let a := if look = .negative then s.attempts.note s'.attempts look r s.position
        else s'.attempts
      let tree := ParseTree.node r (s.rest.take (s'.position - s.position)) trees
      .matched ⟨s'.rest, s'.position, a⟩ (if look = .reading then [tree] else trees)
    | .refused a =>
      .refused (if look = .negative then a else s.attempts.note a look r s.position)

/-- what an expression makes of a text at a place -/
inductive Runs (g : Grammar ρ) : Look → Expr ρ → State ρ → Result ρ → Prop
  | terminal {look : Look} {t : Terminal} {s : State ρ} : Runs g look (.terminal t) s (s.test t)
  | rule {look : Look} {r : ρ} {s : State ρ} {result : Result ρ}
    (h : Runs g look (g.body r) s result) :
    Runs g look (.rule r) s (g.close look r s result)
  | seq_refused {look : Look} {e e' : Expr ρ} {s : State ρ} {a : Attempts ρ}
    (h : Runs g look e s (.refused a)) : Runs g look (.seq e e') s (.refused a)
  | seq_refused_later {look : Look} {e e' : Expr ρ} {s s' : State ρ} {trees : List (ParseTree ρ)}
    {a : Attempts ρ} (h : Runs g look e s (.matched s' trees))
    (h' : Runs g look e' s' (.refused a)) : Runs g look (.seq e e') s (.refused a)
  | seq {look : Look} {e e' : Expr ρ} {s s' s'' : State ρ} {trees trees' : List (ParseTree ρ)}
    (h : Runs g look e s (.matched s' trees)) (h' : Runs g look e' s' (.matched s'' trees')) :
    Runs g look (.seq e e') s (.matched s'' (trees ++ trees'))
  | choice_first {look : Look} {e e' : Expr ρ} {s s' : State ρ} {trees : List (ParseTree ρ)}
    (h : Runs g look e s (.matched s' trees)) :
    Runs g look (.choice e e') s (.matched s' trees)
  | choice_second {look : Look} {e e' : Expr ρ} {s : State ρ} {a : Attempts ρ} {result : Result ρ}
    (h : Runs g look e s (.refused a)) (h' : Runs g look e' ⟨s.rest, s.position, a⟩ result) :
    Runs g look (.choice e e') s result
  | many_none {look : Look} {e : Expr ρ} {s : State ρ} {a : Attempts ρ}
    (h : Runs g look e s (.refused a)) :
    Runs g look (.many e) s (.matched ⟨s.rest, s.position, a⟩ [])
  | many_more {look : Look} {e : Expr ρ} {s s' s'' : State ρ} {trees trees' : List (ParseTree ρ)}
    (h : Runs g look e s (.matched s' trees))
    (h' : Runs g look (.many e) s' (.matched s'' trees')) :
    Runs g look (.many e) s (.matched s'' (trees ++ trees'))
  | not_refused {look : Look} {e : Expr ρ} {s : State ρ} {a : Attempts ρ}
    (h : Runs g look.flip e s (.refused a)) :
    Runs g look (.not e) s (.matched ⟨s.rest, s.position, a⟩ [])
  | not_matched {look : Look} {e : Expr ρ} {s s' : State ρ} {trees : List (ParseTree ρ)}
    (h : Runs g look.flip e s (.matched s' trees)) :
    Runs g look (.not e) s (.refused s'.attempts)

/-- what a rule makes of a text from its start -/
def Parses (g : Grammar ρ) (r : ρ) (text : List Char) (result : Result ρ) : Prop :=
  Runs g .reading (.rule r) ⟨text, 0, .start⟩ result

variable {g : Grammar ρ} {look : Look} {e e' : Expr ρ} {s s' : State ρ} {a : Attempts ρ}
  {trees : List (ParseTree ρ)} {result result' : Result ρ}

/-! ## single steps -/

theorem Runs.test {t : Terminal} (count : Nat) (h : t.taken? s = some count) :
    Runs g look (.terminal t) s
      (.matched ⟨s.rest.drop count, s.position + count, s.attempts⟩ []) := by
  have hrun : Runs g look (.terminal t) s (s.test t) := .terminal
  rw [State.test, h] at hrun
  exact hrun

theorem Runs.test_refused {t : Terminal} (h : t.taken? s = none) :
    Runs g look (.terminal t) s (.refused s.attempts) := by
  have hrun : Runs g look (.terminal t) s (s.test t) := .terminal
  rw [State.test, h] at hrun
  exact hrun

/-- a rule that is silent is only a name -/
theorem Runs.silent {r : ρ} (hr : g.silent r = true) (h : Runs g look (g.body r) s result) :
    Runs g look (.rule r) s result := by
  have hclose : g.close look r s result = result := if_pos hr
  rw [← hclose]
  exact .rule h

theorem Runs.node {r : ρ} (hr : g.silent r = false)
    (h : Runs g .reading (g.body r) s (.matched s' trees)) :
    Runs g .reading (.rule r) s
      (.matched s' [.node r (s.rest.take (s'.position - s.position)) trees]) := by
  have hrun := Runs.rule h
  rw [Grammar.close, hr] at hrun
  exact hrun

theorem Runs.noted {r : ρ} (hr : g.silent r = false)
    (h : Runs g .reading (g.body r) s (.refused a)) :
    Runs g .reading (.rule r) s (.refused (s.attempts.note a .reading r s.position)) := by
  have hrun := Runs.rule h
  rw [Grammar.close, hr] at hrun
  exact hrun

/-- an attempt further on stays -/
theorem Runs.refused_of_lt {r : ρ} (hr : g.silent r = false) (hlt : s.position < a.position)
    (h : Runs g .reading (g.body r) s (.refused a)) : Runs g .reading (.rule r) s (.refused a) := by
  have hrun := Runs.noted hr h
  rw [Attempts.note_of_lt hlt] at hrun
  exact hrun

/-! ## the outcome -/

/-- an expression makes one thing of a text at most -/
theorem Runs.unique (h : Runs g look e s result) (h' : Runs g look e s result') :
    result = result' := by
  induction h generalizing result' with
  | terminal =>
    cases h' with
    | terminal => rfl
  | rule _ ih =>
    cases h' with
    | rule h' => rw [ih h']
  | seq_refused _ ih =>
    cases h' with
    | seq_refused h' => exact ih h'
    | seq_refused_later h' _ => cases ih h'
    | seq h' _ => cases ih h'
  | seq_refused_later _ _ ih ih' =>
    cases h' with
    | seq_refused h' => cases ih h'
    | seq_refused_later h' h'' =>
      cases ih h'
      exact ih' h''
    | seq h' h'' =>
      cases ih h'
      cases ih' h''
  | seq _ _ ih ih' =>
    cases h' with
    | seq_refused h' => cases ih h'
    | seq_refused_later h' h'' =>
      cases ih h'
      cases ih' h''
    | seq h' h'' =>
      cases ih h'
      cases ih' h''
      rfl
  | choice_first _ ih =>
    cases h' with
    | choice_first h' => exact ih h'
    | choice_second h' _ => cases ih h'
  | choice_second _ _ ih ih' =>
    cases h' with
    | choice_first h' => cases ih h'
    | choice_second h' h'' =>
      cases ih h'
      exact ih' h''
  | many_none _ ih =>
    cases h' with
    | many_none h' =>
      cases ih h'
      rfl
    | many_more h' _ => cases ih h'
  | many_more _ _ ih ih' =>
    cases h' with
    | many_none h' => cases ih h'
    | many_more h' h'' =>
      cases ih h'
      cases ih' h''
      rfl
  | not_refused _ ih =>
    cases h' with
    | not_refused h' =>
      cases ih h'
      rfl
    | not_matched h' => cases ih h'
  | not_matched _ ih =>
    cases h' with
    | not_refused h' => cases ih h'
    | not_matched h' =>
      cases ih h'
      rfl

end Holdout.Peg
