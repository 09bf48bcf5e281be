import Holdout.Listing.Entry
import Holdout.Listing.Error

/-!
# Reading listings

A listing holds one machine per line, as a code with an optional name in front and an optional
alphabet size behind: `name: code size`.  White space around a line does not count; empty lines
and lines that start with `#` are skipped but numbered.

* `keptLines`   the numbered lines that are not skipped;
* `readLine`    the entry of a line, or what is wrong with it;
* `read`        the entries of a listing, or the fault of its first bad line.
-/

namespace Holdout.Listing

def commentMark : Char := '#'

def nameMark : Char := ':'

/-- the trimmed lines of a text with their numbers -/
def numberedLines (content : List Char) : List (List Char × Nat) :=
  ((content.splitOn '\n').map Text.trim).zipIdx 1

/-- the line is neither empty nor a comment -/
def isKept (line : List Char) : Bool :=
  match line with
  | [] => false
  | c :: _ => c != commentMark

def keptLines (content : List Char) : List (List Char × Nat) :=
  (numberedLines content).filter fun (line, _) => isKept line

/-- the name before the mark and the text after it; a line without a mark is all text -/
def splitName (line : List Char) : Option (List Char) × List Char :=
  match Text.cutAt? nameMark line with
  | some (before, after) => (some (Text.trim before), after)
  | none => (none, line)

/-- the entry of a line's name and fields -/
def entryOfFields (name : Option (List Char)) (number : Nat) :
    List (List Char) → Except LineFault Entry
  | [] => .error .missingCode
  | code :: sizes =>
    let entry : Option Nat → Entry := fun symbols =>
      ⟨(name.filter fun n => !n.isEmpty).map String.ofList, String.ofList code, symbols, number⟩
    match sizes with
    | [] => .ok (entry none)
    | size :: extra =>
      match Decimal.count? size, extra with
      | none, _ => .error (.invalidSize size)
      | some symbols, [] => .ok (entry (some symbols))
      | some _, field :: _ => .error (.unexpectedField field)

def readLine (line : List Char × Nat) : Except SourceError Entry :=
  let (name, text) := splitName line.1
  match entryOfFields name line.2 (Text.fields text) with
  | .ok entry => .ok entry
  | .error fault => .error (.badLine line.2 fault)

def readChars (content : List Char) : Except SourceError (List Entry) :=
  (keptLines content).mapM readLine

def read (content : String) : Except SourceError (List Entry) := readChars content.toList

end Holdout.Listing
