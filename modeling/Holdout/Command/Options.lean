import Holdout.Run.Outcome

/-!
# Options of the command line

* `Key`, `Flag`        the options with a value and those without;
* `Options`            what a command line asks for;
* `Options.setKey?`, `Options.setFlag?`   record an option, unless it was given before or its value
                       is malformed;
* `Options.limits`     the limits that the options set.
-/

namespace Holdout.Command

inductive Key where
  | known
  | file
  | symbols
  | allTape
  | space
  | timeMs
  | steps
  | trace
  deriving DecidableEq

inductive Flag where
  | list
  | json
  | analyze
  deriving DecidableEq

structure Options where
  codes : List String
  known : List String
  file : Option String
  symbols : Option Nat
  allTape : Option Symbol
  space : Option Nat
  timeMs : Option Nat
  steps : Option Nat
  /-- how many snapshots to print -/
  trace : Option Nat
  list : Bool
  json : Bool
  analyze : Bool
  deriving DecidableEq

/-- the value of an option that may be given once -/
def once {α : Type} (old value : Option α) : Option (Option α) :=
  if old.isSome || value.isNone then none else some value

/-- reads a symbol; it may carry a sign, so a zero may be negative -/
def readSymbol? : List Char → Option Symbol
  | '-' :: ds => if Decimal.unsigned? ds = some 0 then some 0 else none
  | cs =>
    match Decimal.count? cs with
    | some n => if n < 256 then some (UInt8.ofNat n) else none
    | none => none

/-- reads a path, which is not empty -/
def readPath? (cs : List Char) : Option String :=
  if cs.isEmpty then none else some (String.ofList cs)

namespace Options

def empty : Options := ⟨[], [], none, none, none, none, none, none, none, false, false, false⟩

def addCodes (o : Options) (codes : List String) : Options := { o with codes := o.codes ++ codes }

def setKey? (o : Options) (value : List Char) : Key → Option Options
  | .known => some { o with known := o.known ++ [String.ofList value] }
  | .file => (once o.file (readPath? value)).map fun x => { o with file := x }
  | .symbols => (once o.symbols (Decimal.count? value)).map fun x => { o with symbols := x }
  | .allTape => (once o.allTape (readSymbol? value)).map fun x => { o with allTape := x }
  | .space => (once o.space (Decimal.count? value)).map fun x => { o with space := x }
  | .timeMs => (once o.timeMs (Decimal.count? value)).map fun x => { o with timeMs := x }
  | .steps => (once o.steps (Decimal.count? value)).map fun x => { o with steps := x }
  | .trace => (once o.trace (Decimal.count? value)).map fun x => { o with trace := x }

def setFlag? (o : Options) : Flag → Option Options
  | .list => if o.list then none else some { o with list := true }
  | .json => if o.json then none else some { o with json := true }
  | .analyze => if o.analyze then none else some { o with analyze := true }

/-! ## defaults -/

/-- the alphabet size of codes that give none: two symbols -/
def defaultSymbols (o : Options) : Nat := o.symbols.getD 2

/-- what a fresh tape holds: zeros -/
def blank (o : Options) : Symbol := o.allTape.getD defaultBlank

/-- ten thousand cells, one second and any number of transitions; no milliseconds at all mean no
time limit -/
def limits (o : Options) : Limits where
  space := o.space.getD Limits.default.space
  time :=
    match o.timeMs with
    | none => Limits.default.time
    | some 0 => none
    | some millis => some (Span.ofMillis millis)
  steps := o.steps

end Options

end Holdout.Command
