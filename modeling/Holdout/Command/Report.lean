import Holdout.Analysis
import Holdout.Catalog
import Holdout.Command.Arguments
import Holdout.Exchange.Run
import Holdout.Listing.File

/-!
# What the command prints

Every machine is treated on its own: a code that does not decode costs its own entry only.

* `gather`        the entries to run: codes, catalog names and the listing, in this order;
* `entryBlock`    what one entry prints;
* `runReport`     the report of a run over all entries;
* `respond`       the report of what the options ask for;
* `perform`       the report of a whole command line.

Every run looks at a clock of its own, so `clocks i` is given for that of entry `i`.  A machine need
not come to an end; `none` stands for one that did not within `patience` configurations.
-/

namespace Holdout.Command

open Json (Value)

/-- what a command leaves behind -/
structure Report where
  exitCode : Nat
  out : String
  err : String
  deriving DecidableEq

/-- the exit code of a command line that cannot be read -/
def usageExit : Nat := 2

def unlines (texts : List String) : String := String.join (texts.map (· ++ "\n"))

/-! ## one entry -/

structure Block where
  /-- for the standard output, a line feed after each -/
  printed : List String
  /-- for the standard error, a line feed after each -/
  logged : List String
  failed : Bool
  deriving DecidableEq

def errorLine (o : Options) (e : Listing.Entry) (cause : DecodeError) : String :=
  if o.json then
    (Value.record [("code", .text e.code), ("error", .text cause.message),
      ("name", .text e.label), ("status", .text "ERROR")]).write
  else e.label ++ ": ERROR " ++ cause.message

def resultLine (o : Options) (e : Listing.Entry) (outcome : Outcome) : String :=
  if o.json then
    (Value.record [("code", .text e.code), ("name", .text e.label),
      ("result", outcome.toJson), ("status", .text outcome.status)]).write
  else e.label ++ ": " ++ outcome.summary

/-- the line of the snapshots, if they were asked for -/
def traceLines (o : Options) (kept : List Snapshot) : List String :=
  if o.trace.isSome then [(Trace.toJson kept).write] else []

/-- the facts of a machine, if they were asked for -/
def analysisLines (o : Options) (m : Machine) : List String :=
  if o.analyze then [m.description ++ m.analysis.description] else []

/-- the block of an entry whose run looks at a clock -/
def entryBlock (o : Options) (patience : Nat) (e : Listing.Entry) (clock : Clock) : Option Block :=
  match e.decode o.defaultSymbols o.blank with
  | .error cause => some ⟨[errorLine o e cause], [], true⟩
  | .ok m =>
    match m.trace o.limits (o.trace.getD 0) patience clock with
    | none => none
    | some (outcome, kept) =>
      some ⟨resultLine o e outcome :: traceLines o kept, analysisLines o m, outcome.isFailed⟩

/-! ## the whole command -/

/-- the entries to run, given how files are read -/
def gather (o : Options) (readFile : String → Listing.FileResult) :
    Except Listing.SourceError (List Listing.Entry) := do
  let named ← o.known.mapM Catalog.find
  let listed ←
    match o.file with
    | none => pure []
    | some path => Listing.ofFile path (readFile path)
  return o.codes.map Listing.Entry.ofCode ++ named ++ listed

/-- the report of the blocks of all entries -/
def ofBlocks (blocks : List Block) : Report where
  exitCode := if blocks.any Block.failed then 1 else 0
  out := unlines (blocks.flatMap Block.printed)
  err := unlines (blocks.flatMap Block.logged)

/-- the entries in order, each with the clock of its run -/
def onClocks (clocks : Nat → Clock) (entries : List Listing.Entry) :
    List (Listing.Entry × Clock) :=
  entries.zipIdx.map fun (e, i) => (e, clocks i)

/-- the blocks of all entries, unless one of the runs has not ended -/
def entryBlocks (o : Options) (patience : Nat) (clocks : Nat → Clock)
    (entries : List Listing.Entry) : Option (List Block) :=
  (onClocks clocks entries).mapM fun (e, clock) => entryBlock o patience e clock

def runReport (o : Options) (readFile : String → Listing.FileResult) (patience : Nat)
    (clocks : Nat → Clock) : Option Report :=
  match gather o readFile with
  | .error e => some ⟨1, "", unlines ["Error: " ++ e.message]⟩
  | .ok entries => (entryBlocks o patience clocks entries).map ofBlocks

def catalogReport : Report :=
  ⟨0, unlines (Catalog.entries.map fun e => e.label ++ ": " ++ e.code), ""⟩

def respond (o : Options) (readFile : String → Listing.FileResult) (patience : Nat)
    (clocks : Nat → Clock) : Option Report :=
  if o.list then some catalogReport else runReport o readFile patience clocks

/-! ## the command line -/

def versionLine : String := "beaver-cli 0.1.0"

/-- the texts that the reader of the command line has for its user -/
structure Manual where
  help : String
  /-- what is said of arguments that cannot be read -/
  complaint : List String → String

def perform (manual : Manual) (args : List String) (readFile : String → Listing.FileResult)
    (patience : Nat) (clocks : Nat → Clock) : Option Report :=
  match readArguments args with
  | none => some ⟨usageExit, "", manual.complaint args⟩
  | some .version => some ⟨0, unlines [versionLine], ""⟩
  | some .help => some ⟨0, manual.help, ""⟩
  | some (.run o) => respond o readFile patience clocks

end Holdout.Command
