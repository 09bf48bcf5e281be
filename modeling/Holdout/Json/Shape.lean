import Holdout.Json.Reader

/-!
# Taking values apart

How program values are found in JSON values.

* `Value.fields?`    the fields of a structure: a record with the known fields in any order, others
                     being ignored, or a list of all of them in order;
* `Value.onlyFields?`   the same without unknown fields;
* `Value.variant?`   the case of a choice: its name alone, or a record with the name as only key;
* `required`, `optional`   a field that must, or need not, be there.
-/

namespace Holdout.Json

namespace Value

/-- a natural number of 64 bits -/
def word? : Value → Option Nat
  | number n => Decimal.bounded? n
  | _ => none

/-- a natural number below a bound -/
def below? (bound : Nat) : Value → Option Nat
  | number n => if n < bound then some n else none
  | _ => none

def byte? (v : Value) : Option UInt8 := (v.below? 256).map UInt8.ofNat

def text? : Value → Option String
  | text s => some s
  | _ => none

def char? : Value → Option Char
  | text s =>
    match s.toList with
    | [c] => some c
    | _ => none
  | _ => none

def listOf? {α : Type} (read : Value → Option α) : Value → Option (List α)
  | list vs => vs.mapM read
  | _ => none

/-- no name is the key of two fields -/
def noneTwice (names : List String) (fields : List (String × Value)) : Bool :=
  names.all fun name => (fields.countP fun field => field.1 == name) ≤ 1

/-- the fields of a structure, `none` standing for one that is missing -/
def fields? (names : List String) : Value → Option (List (Option Value))
  | record fields =>
    if noneTwice names fields then some (names.map fun name => fields.lookup name) else none
  | list vs => if vs.length = names.length then some (vs.map some) else none
  | _ => none

def onlyNamed (names : List String) : Value → Bool
  | record fields => fields.all fun field => names.contains field.1
  | _ => true

/-- the fields of a structure that has no others -/
def onlyFields? (names : List String) (v : Value) : Option (List (Option Value)) :=
  if v.onlyNamed names then v.fields? names else none

/-- the name of a case and what comes with it -/
def variant? : Value → Option (String × Option Value)
  | text s => some (s, none)
  | record [(name, v)] => some (name, some v)
  | _ => none

/-- a case with nothing in it may come alone or with `null` -/
def isBare : Option Value → Bool
  | none => true
  | some null => true
  | some _ => false

end Value

def required {α : Type} (read : Value → Option α) (field : Option Value) : Option α :=
  field.bind read

/-- a field that may be missing or `null` -/
def optional {α : Type} (read : Value → Option α) : Option Value → Option (Option α)
  | none => some none
  | some .null => some none
  | some v => (read v).map some

end Holdout.Json
