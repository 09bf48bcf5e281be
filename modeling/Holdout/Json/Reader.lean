import Holdout.Json.Value

/-!
# Reading JSON

* `textBody`     the rest of a string after its opening quote;
* `numberText`   a number;
* `value`        a value in front of a text, given enough `fuel`: every bracket uses two, and every
                 item or field one;
* `read?`        the value of a whole text, with white space around it.
-/

namespace Holdout.Json

/-- white space between the parts of a text -/
def isBlank (c : Char) : Bool := c == ' ' || c == '\t' || c == '\n' || c == '\r'

def skipBlanks (cs : List Char) : List Char := cs.dropWhile isBlank

/-! ## strings -/

def hexValue? (c : Char) : Option Nat :=
  if c.isDigit then some (c.toNat - '0'.toNat)
  else if 'a' ≤ c && c ≤ 'f' then some (c.toNat - 'a'.toNat + 10)
  else if 'A' ≤ c && c ≤ 'F' then some (c.toNat - 'A'.toNat + 10)
  else none

/-- the number of four hexadecimal digits -/
def hexUnit? (a b c d : Char) : Option Nat := do
  let a ← hexValue? a
  let b ← hexValue? b
  let c ← hexValue? c
  let d ← hexValue? d
  return ((a * 16 + b) * 16 + c) * 16 + d

def isHighUnit (n : Nat) : Bool := 0xd800 ≤ n && n < 0xdc00

def isLowUnit (n : Nat) : Bool := 0xdc00 ≤ n && n < 0xe000

def pairChar (high low : Nat) : Char :=
  Char.ofNat (0x10000 + (high - 0xd800) * 0x400 + (low - 0xdc00))

/-- the character that one letter after a backslash stands for -/
def simpleEscape? (c : Char) : Option Char :=
  if c = '"' then some '"'
  else if c = '\\' then some '\\'
  else if c = '/' then some '/'
  else if c = 'b' then some '\x08'
  else if c = 'f' then some '\x0c'
  else if c = 'n' then some '\n'
  else if c = 'r' then some '\r'
  else if c = 't' then some '\t'
  else none

/-- a string that has been read in part -/
structure PartialText where
  /-- the characters so far, last one first -/
  chars : List Char
  /-- the first half of a pair whose second half has to follow -/
  pending : Option Nat
  /-- every escape so far has named a character -/
  sound : Bool

namespace PartialText

def empty : PartialText := ⟨[], none, true⟩

def push (t : PartialText) (c : Char) : PartialText :=
  ⟨c :: t.chars, none, t.sound && t.pending.isNone⟩

def pushUnit (t : PartialText) (unit : Nat) : PartialText :=
  if isHighUnit unit then { t with pending := some unit, sound := t.sound && t.pending.isNone }
  else if isLowUnit unit then
    match t.pending with
    | some high => ⟨pairChar high unit :: t.chars, none, t.sound⟩
    | none => { t with sound := false }
  else t.push (Char.ofNat unit)

/-- the finished string, if every escape named a character -/
def finish (t : PartialText) : Option (List Char) :=
  if t.sound && t.pending.isNone then some t.chars.reverse else none

end PartialText

/-- the rest of a string; the string is `none` when an escape names no character -/
def textBody (t : PartialText) : List Char → Option (Option (List Char) × List Char)
  | [] => none
  | '"' :: rest => some (t.finish, rest)
  | '\\' :: 'u' :: a :: b :: c :: d :: rest =>
    match hexUnit? a b c d with
    | none => none
    | some unit => textBody (t.pushUnit unit) rest
  | '\\' :: c :: rest =>
    match simpleEscape? c with
    | none => none
    | some e => textBody (t.push e) rest
  | c :: rest => if c = '\\' || c.toNat < 0x20 then none else textBody (t.push c) rest

/-! ## numbers -/

/-- digits that start with a zero only when they are one zero -/
def integer? (cs : List Char) : Option (List Char × List Char) :=
  match cs.span Char.isDigit with
  | ([], _) => none
  | ('0' :: _ :: _, _) => none
  | (ds, rest) => some (ds, rest)

/-- the text after a fraction, if there is one; `none` for a point without digits -/
def skipFraction? : List Char → Option (Bool × List Char)
  | '.' :: cs =>
    match cs.span Char.isDigit with
    | ([], _) => none
    | (_, rest) => some (true, rest)
  | cs => some (false, cs)

def skipSign : List Char → List Char
  | '+' :: cs => cs
  | '-' :: cs => cs
  | cs => cs

/-- the text after an exponent, if there is one; `none` for an exponent without digits -/
def skipExponent? : List Char → Option (Bool × List Char)
  | [] => some (false, [])
  | c :: cs =>
    if c = 'e' || c = 'E' then
      match (skipSign cs).span Char.isDigit with
      | ([], _) => none
      | (_, rest) => some (true, rest)
    else some (false, c :: cs)

def unsignedNumber? (cs : List Char) : Option (Value × List Char) := do
  let (ds, afterInteger) ← integer? cs
  let (hasFraction, afterFraction) ← skipFraction? afterInteger
  let (hasExponent, rest) ← skipExponent? afterFraction
  if hasFraction || hasExponent then return (.otherNumber, rest)
  else return (.number (Decimal.value ds), rest)

def number? : List Char → Option (Value × List Char)
  | '-' :: cs => (unsignedNumber? cs).map fun (_, rest) => (.otherNumber, rest)
  | cs => unsignedNumber? cs

/-! ## values -/

/-- a value that is neither a list nor a record -/
def scalar? : List Char → Option (Value × List Char)
  | 'n' :: 'u' :: 'l' :: 'l' :: rest => some (.null, rest)
  | 't' :: 'r' :: 'u' :: 'e' :: rest => some (.bool true, rest)
  | 'f' :: 'a' :: 'l' :: 's' :: 'e' :: rest => some (.bool false, rest)
  | '"' :: cs =>
    match textBody .empty cs with
    | none => none
    | some (none, rest) => some (.brokenText, rest)
    | some (some s, rest) => some (.text (String.ofList s), rest)
  | cs => number? cs

/-- the key of a field and its colon -/
def key? (cs : List Char) : Option (Option (List Char) × List Char) :=
  match skipBlanks cs with
  | '"' :: body =>
    match textBody .empty body with
    | none => none
    | some (key, rest) =>
      match skipBlanks rest with
      | ':' :: later => some (key, later)
      | _ => none
  | _ => none

/-- the record of fields in reverse order, broken when a key is -/
def recordOf (sound : Bool) (acc : List (String × Value)) : Value :=
  if sound then .record acc.reverse else .brokenText

mutual

/-- the value that a text starts with -/
def value : (fuel : Nat) → List Char → Option (Value × List Char)
  | 0, _ => none
  | fuel + 1, cs =>
    match skipBlanks cs with
    | '[' :: rest =>
      match skipBlanks rest with
      | ']' :: later => some (.list [], later)
      | _ => items fuel [] rest
    | '\x7b' :: rest =>
      match skipBlanks rest with
      | '\x7d' :: later => some (.record [], later)
      | _ => members fuel true [] rest
    | other => scalar? other

/-- the later items of a list, after those in `acc` -/
def items : (fuel : Nat) → List Value → List Char → Option (Value × List Char)
  | 0, _, _ => none
  | fuel + 1, acc, cs =>
    match value fuel cs with
    | none => none
    | some (v, rest) =>
      match skipBlanks rest with
      | ',' :: later => items fuel (v :: acc) later
      | ']' :: later => some (.list (v :: acc).reverse, later)
      | _ => none

/-- the later fields of a record, after those in `acc`; `sound` tells that no key was broken -/
def members : (fuel : Nat) → Bool → List (String × Value) → List Char →
    Option (Value × List Char)
  | 0, _, _, _ => none
  | fuel + 1, sound, acc, cs =>
    match key? cs with
    | none => none
    | some (key, afterKey) =>
      match value fuel afterKey with
      | none => none
      | some (v, rest) =>
        let name := String.ofList (key.getD [])
        match skipBlanks rest with
        | ',' :: later => members fuel (sound && key.isSome) ((name, v) :: acc) later
        | '\x7d' :: later => some (recordOf (sound && key.isSome) ((name, v) :: acc), later)
        | _ => none

end

/-- enough for any text: a bracket uses two -/
def fuelFor (cs : List Char) : Nat := 2 * cs.length + 2

def readChars? (cs : List Char) : Option Value :=
  match value (fuelFor cs) cs with
  | none => none
  | some (v, rest) => if (skipBlanks rest).isEmpty then some v else none

def read? (text : String) : Option Value := readChars? text.toList

end Holdout.Json
