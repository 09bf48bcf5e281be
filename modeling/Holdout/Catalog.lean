import Holdout.Listing.Reader

/-!
# The catalog

Nine machines that are known by name: busy beaver champions, a small halting machine and two that
never halt.

* `Catalog.listing`   the text that names them, `Catalog.load` what is read of it;
* `Catalog.entries`   the machines, in order, `Catalog.load_eq` that these are read;
* `Catalog.find`      the entry of a name, `Catalog.decode` its machine;
* `Catalog.search`    the names that hold a text, in upper or lower case.
-/

namespace Holdout.Catalog

/-- the machines stand in three groups, with a comment before each and an empty line between two -/
def listingLines : List String := [
  "# Known machines: `name: code symbols`.",
  "",
  "# Busy Beaver champions.",
  "bb2: 1RB1LB_1LA1RZ 2",
  "bb3: 1RB1RZ_0RC1RB_1LC1LA 2",
  "bb3-steps: 1RB1RZ_1LB0RC_1LC1LA 2",
  "bb4: 1RB1LB_1LA0LC_1RZ1LD_1RD0RA 2",
  "bb5: 1RB1LC_1RC1RB_1RD0LE_1LA1LD_1RZ0LA 2",
  "bb2x3: 1RB2LB1RZ_2LA2RB1LB 3",
  "",
  "# Small halting machine, four steps.",
  "short-halter: 1RB0RB_1LA1RZ 2",
  "",
  "# Non-halting machines.",
  "translated-cycler: 1RB---_1LB0RB 2",
  "cycler: 1RB0RB_0LA--- 2"]

/-- a line feed after each line -/
def listing : String := String.join (listingLines.map (· ++ "\n"))

/-- the entries of the listing; there would be none if it had a bad line -/
def load : List Listing.Entry := (Listing.read listing).toOption.getD []

/-- an entry with all its parts -/
def entry (name code : String) (symbols line : Nat) : Listing.Entry :=
  ⟨some name, code, some symbols, line⟩

def champions : List Listing.Entry := [
  entry "bb2" "1RB1LB_1LA1RZ" 2 4,
  entry "bb3" "1RB1RZ_0RC1RB_1LC1LA" 2 5,
  entry "bb3-steps" "1RB1RZ_1LB0RC_1LC1LA" 2 6,
  entry "bb4" "1RB1LB_1LA0LC_1RZ1LD_1RD0RA" 2 7,
  entry "bb5" "1RB1LC_1RC1RB_1RD0LE_1LA1LD_1RZ0LA" 2 8,
  entry "bb2x3" "1RB2LB1RZ_2LA2RB1LB" 3 9]

/-- a machine that halts after four steps -/
def shortHalter : Listing.Entry := entry "short-halter" "1RB0RB_1LA1RZ" 2 12

/-- a machine that never halts and visits ever more cells -/
def translatedCycler : Listing.Entry := entry "translated-cycler" "1RB---_1LB0RB" 2 15

/-- a machine that never halts and stays on two cells -/
def cycler : Listing.Entry := entry "cycler" "1RB0RB_0LA---" 2 16

def entries : List Listing.Entry := champions ++ [shortHalter, translatedCycler, cycler]

theorem toList_listing :
    listing.toList = listingLines.flatMap fun line => line.toList ++ ['\n'] := by
  simp [listing, String.toList_join, List.flatMap_map]

/-- no line of the listing is bad -/
theorem read_listing : Listing.read listing = .ok entries := by
  have hread : (Listing.readChars listing.toList).toOption = some entries := by
    -- line by line, since a long literal is slow to take apart
    rw [toList_listing]
    decide +kernel
  rw [Listing.read]
  cases hloaded : Listing.readChars listing.toList with
  | ok loaded =>
    rw [hloaded] at hread
    cases hread
    rfl
  | error fault =>
    rw [hloaded] at hread
    cases hread

theorem load_eq : load = entries := by
  rw [load, read_listing]
  rfl

def names : List String := entries.map Listing.Entry.label

/-- the alphabet size of an entry that gives none -/
def defaultSymbols : Nat := 2

def find (name : String) : Except Listing.SourceError Listing.Entry :=
  match entries.find? fun e => e.name == some name with
  | some e => .ok e
  | none => .error (.unknownMachine name)

def decode (name : String) : Except Listing.SourceError Machine := do
  let e ← find name
  match e.decode defaultSymbols defaultBlank with
  | .ok m => return m
  | .error cause => throw (.undecodable cause)

/-- letters in lower case; only ASCII letters occur in the names, so no others are folded -/
def foldCase (s : String) : List Char := s.toList.map Char.toLower

/-- the first text is a part of the second -/
def occursIn (part : List Char) : List Char → Bool
  | [] => part.isEmpty
  | c :: cs => part.isPrefixOf (c :: cs) || occursIn part cs

/-- the names that hold a text, in upper or lower case -/
def search (query : String) : List String :=
  names.filter fun name => occursIn (foldCase query) (foldCase name)

end Holdout.Catalog
