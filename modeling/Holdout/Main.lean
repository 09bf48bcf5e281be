import Holdout.Command.Report

/-!
# The command

Reads the arguments and the listing they name, prints the report and leaves with its exit code.

A run is given its clock and cannot look at the time itself.  So every run that has a budget of time
is let go on for more and more configurations until it ends or its time is up; its clock shows how
far it had come by then.
-/

namespace Holdout.Command

/-- more configurations than any machine comes to in a lifetime -/
def lifetime : Nat := 4611686018427387904

/-- why the system refused to read a file -/
def failureOf : IO.Error → Listing.ReadFailure
  | .noFileOrDirectory .. => .missing
  | .inappropriateType _ code _ => if code = 21 then .isDirectory else .notDirectory
  | e => .other (toString e)

def readFile (path : String) : IO Listing.FileResult := do
  try
    let bytes ← IO.FS.readBinFile path
    return .ok bytes
  catch e => return .error (failureOf e)

/-- reads the listing that a request names -/
def readListing : Option Request → IO Listing.FileResult
  | some (.run o) =>
    match o.file with
    | some path => readFile path
    | none => return .error .missing
  | _ => return .error .missing

/-- the clock of a run that had taken no time until a look, and this much from then on -/
def lateClock (look passed : Nat) : Clock := fun k => if k < look then 0 else passed

/-- lets the run of an entry that began at a time go on, twice as far each time -/
def clockFrom (o : Options) (e : Listing.Entry) (begun : Nat) :
    (doublings : Nat) → (patience : Nat) → IO Clock
  | 0, _ => return Clock.stopped
  | doublings + 1, patience => do
    if (entryBlock o patience e Clock.stopped).isSome then return Clock.stopped
    let now ← IO.monoNanosNow
    if o.limits.timeIsUp (now - begun) then return lateClock patience (now - begun)
    clockFrom o e begun doublings (2 * patience)

/-- the clock of an entry's run; it does not matter if there is no budget of time -/
def clockOf (o : Options) (e : Listing.Entry) : IO Clock := do
  if o.limits.time.isNone then return Clock.stopped
  clockFrom o e (← IO.monoNanosNow) 52 1024

/-- the clocks of all runs that a request asks for -/
def clocksOf (request : Option Request) (result : Listing.FileResult) : IO (Nat → Clock) := do
  let clocks ←
    match request with
    | some (.run o) =>
      match gather o fun _ => result with
      | .ok entries => if o.list then pure [] else entries.mapM (clockOf o)
      | .error _ => pure []
    | _ => pure []
  return fun i => clocks.getD i Clock.stopped

def manual : Manual where
  help := "beaver-cli: decodes Busy Beaver machine codes and reports whether they halt\n"
  complaint _ := "error: the arguments cannot be read\n"

end Holdout.Command

def main (args : List String) : IO UInt32 := do
  let request := Holdout.Command.readArguments args
  let result ← Holdout.Command.readListing request
  let clocks ← Holdout.Command.clocksOf request result
  let answer := Holdout.Command.perform Holdout.Command.manual args (fun _ => result)
    Holdout.Command.lifetime clocks
  match answer with
  | none =>
    IO.eprintln "Error: a machine did not come to an end"
    return 1
  | some report =>
    IO.print report.out
    IO.eprint report.err
    return report.exitCode.toUInt32
