import Holdout.Text.Decimal

/-!
# JSON values and their text

* `Value`         the values; `Value.members_induction`, induction over what is in them;
* `Value.chars`   the text of a value, without any white space;
* `quoted`        the text of a string.

Numbers are natural numbers in plain digits.  Texts may hold two things that no program value is
made from, and `Value` keeps their place without their content: numbers of another form, and strings
with an escape that names no character.
-/

namespace Holdout.Json

inductive Value where
  | null
  | bool (b : Bool)
  | number (n : Nat)
  /-- a number with a sign, a fraction or an exponent -/
  | otherNumber
  | text (s : String)
  /-- a string with an escape that names no character, or a record with such a key -/
  | brokenText
  | list (items : List Value)
  | record (fields : List (String × Value))
  deriving Inhabited

/-- what holds of a list if it holds of its items, and of a record if it holds of what is in its
fields, holds of every value -/
@[elab_as_elim]
theorem Value.members_induction {motive : Value → Prop} (null : motive .null)
    (bool : ∀ b, motive (.bool b)) (number : ∀ n, motive (.number n))
    (otherNumber : motive .otherNumber) (text : ∀ s, motive (.text s))
    (brokenText : motive .brokenText)
    (list : ∀ items, (∀ v ∈ items, motive v) → motive (.list items))
    (record : ∀ fields, (∀ field ∈ fields, motive field.2) → motive (.record fields)) :
    ∀ v, motive v
  | .null => null
  | .bool b => bool b
  | .number n => number n
  | .otherNumber => otherNumber
  | .text s => text s
  | .brokenText => brokenText
  | .list items => list items fun v _ =>
    members_induction null bool number otherNumber text brokenText list record v
  | .record fields => record fields fun field _ =>
    members_induction null bool number otherNumber text brokenText list record field.2
termination_by v => v
decreasing_by
  · have := List.sizeOf_lt_of_mem ‹v ∈ items›
    simp only [Value.list.sizeOf_spec]
    omega
  · have := List.sizeOf_lt_of_mem ‹field ∈ fields›
    have : sizeOf field = 1 + sizeOf field.1 + sizeOf field.2 := by cases field; rfl
    simp only [Value.record.sizeOf_spec]
    omega

/-! ## strings -/

/-- the lower case hexadecimal digit of a number below sixteen -/
def hexDigit (n : Nat) : Char := n.digitChar

def escaped (c : Char) : List Char :=
  if c = '"' then ['\\', '"']
  else if c = '\\' then ['\\', '\\']
  else if c = '\x08' then ['\\', 'b']
  else if c = '\t' then ['\\', 't']
  else if c = '\n' then ['\\', 'n']
  else if c = '\x0c' then ['\\', 'f']
  else if c = '\r' then ['\\', 'r']
  else if c.toNat < 0x20 then
    ['\\', 'u', '0', '0', hexDigit (c.toNat / 16), hexDigit (c.toNat % 16)]
  else [c]

def quoted (cs : List Char) : List Char := '"' :: (cs.flatMap escaped ++ ['"'])

/-- the text of a string whose one escape names no character -/
def brokenChars : List Char := ['"', '\\', 'u', 'd', '8', '0', '0', '"']

/-! ## values -/

namespace Value

mutual

def chars : Value → List Char
  | null => ['n', 'u', 'l', 'l']
  | bool true => ['t', 'r', 'u', 'e']
  | bool false => ['f', 'a', 'l', 's', 'e']
  | number n => Decimal.digits n
  | otherNumber => ['-', '0']
  | text s => quoted s.toList
  | brokenText => brokenChars
  | list [] => ['[', ']']
  | list (v :: vs) => '[' :: (v.chars ++ itemChars vs)
  | record [] => ['\x7b', '\x7d']
  | record ((key, v) :: fields) =>
    '\x7b' :: (quoted key.toList ++ ':' :: (v.chars ++ fieldChars fields))

/-- the text of the later items of a list, with the closing bracket -/
def itemChars : List Value → List Char
  | [] => [']']
  | v :: vs => ',' :: (v.chars ++ itemChars vs)

/-- the text of the later fields of a record, with the closing brace -/
def fieldChars : List (String × Value) → List Char
  | [] => ['\x7d']
  | (key, v) :: fields => ',' :: (quoted key.toList ++ ':' :: (v.chars ++ fieldChars fields))

end

def write (v : Value) : String := String.ofList v.chars

def ofBytes (bytes : List UInt8) : Value := list (bytes.map fun b => number b.toNat)

/-- a value that may be absent -/
def ofOption {α : Type} (f : α → Value) : Option α → Value
  | none => null
  | some a => f a

end Value

end Holdout.Json
