import Holdout.Command.Options
import Holdout.Text.Blank

/-!
# Reading the command line

Arguments are read from left to right, and the first one that asks for the version or the help or
that is in error decides.  A long option is `--name`, its value either the next argument or what
follows an equals sign; a short option is `-x`, its value either the next argument or the rest of
the same one, with or without an equals sign.  An argument after `--` is a code, whatever it looks
like, and so is a single dash.

* `Argument.ofChars`   what one argument is, on its own;
* `Request`            what a whole command line asks for;
* `readArguments`      the request of a command line, or `none` for a usage error.
-/

namespace Holdout.Command

/-- what the name of an option stands for -/
inductive Switch where
  | key (k : Key)
  | flag (f : Flag)
  | version
  | help
  deriving DecidableEq

def Switch.ofLongName? (name : String) : Option Switch :=
  match name with
  | "known" => some (.key .known)
  | "file" => some (.key .file)
  | "symbols" => some (.key .symbols)
  | "all-tape" => some (.key .allTape)
  | "space" => some (.key .space)
  | "time-ms" => some (.key .timeMs)
  | "steps" => some (.key .steps)
  | "trace" => some (.key .trace)
  | "list" => some (.flag .list)
  | "json" => some (.flag .json)
  | "analyze" => some (.flag .analyze)
  | "version" => some .version
  | "help" => some .help
  | _ => none

def Switch.ofShortName? (name : Char) : Option Switch :=
  match name with
  | 'k' => some (.key .known)
  | 'f' => some (.key .file)
  | 'm' => some (.key .symbols)
  | 'b' => some (.key .allTape)
  | 's' => some (.key .space)
  | 't' => some (.key .timeMs)
  | 'V' => some .version
  | 'h' => some .help
  | _ => none

inductive Argument where
  /-- a code, or the value of the option before -/
  | plain
  /-- all later arguments are codes -/
  | endOfOptions
  /-- an option, with the value that is attached to it -/
  | option (s : Switch) (value : Option (List Char))
  | unknown
  deriving DecidableEq

namespace Argument

def ofLong (cs : List Char) : Argument :=
  let (name, value) :=
    match Text.cutAt? '=' cs with
    | some (name, value) => (name, some value)
    | none => (cs, none)
  match Switch.ofLongName? (String.ofList name) with
  | some s => option s value
  | none => unknown

/-- the value in the same argument as a short option, without the equals sign in front -/
def attached : List Char → Option (List Char)
  | [] => none
  | '=' :: value => some value
  | value => some value

/-- the letter after one dash and the rest -/
def ofShort (name : Char) (rest : List Char) : Argument :=
  match Switch.ofShortName? name with
  | some (.key k) => option (.key k) (attached rest)
  | some s => option s none
  | none => unknown

def ofChars : List Char → Argument
  | ['-', '-'] => endOfOptions
  | '-' :: '-' :: cs => ofLong cs
  | '-' :: name :: rest => ofShort name rest
  | _ => plain

end Argument

inductive Request where
  | version
  | help
  | run (o : Options)
  deriving DecidableEq

/-- reads the arguments after those that `o` holds -/
def readFrom (o : Options) : List String → Option Request
  | [] => some (.run o)
  | arg :: rest =>
    match Argument.ofChars arg.toList with
    | .plain => readFrom (o.addCodes [arg]) rest
    | .endOfOptions => some (.run (o.addCodes rest))
    | .unknown => none
    | .option .version none => some .version
    | .option .help none => some .help
    | .option (.flag f) none =>
      match o.setFlag? f with
      | some o' => readFrom o' rest
      | none => none
    | .option (.key k) (some value) =>
      match o.setKey? value k with
      | some o' => readFrom o' rest
      | none => none
    | .option (.key k) none =>
      match rest with
      | [] => none
      | value :: later =>
        if Argument.ofChars value.toList = .plain then
          match o.setKey? value.toList k with
          | some o' => readFrom o' later
          | none => none
        else none
    | .option _ (some _) => none

/-- the request of a command line; one that asks for nothing is a usage error -/
def readArguments (args : List String) : Option Request :=
  match readFrom .empty args with
  | none => none
  | some r => if r = .run .empty then none else some r

end Holdout.Command
