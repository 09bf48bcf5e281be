import Holdout.Code.Reader

/-!
# Entries of a listing

A listing names machines without reading their codes, so a bad code spoils its own entry only.

* `Entry.label`    what an entry is called in reports;
* `Entry.decode`   the machine of an entry.
-/

namespace Holdout.Listing

structure Entry where
  name : Option String
  code : String
  /-- the alphabet size, if the entry gives one -/
  symbols : Option Nat
  /-- the line that the entry stands on, counted from one; zero if it stands on none -/
  line : Nat
  deriving DecidableEq

namespace Entry

def ofCode (code : String) : Entry := ⟨none, code, none, 0⟩

def label (e : Entry) : String := e.name.getD e.code

/-- the machine of an entry, given the alphabet size to use when the entry has none -/
def decode (e : Entry) (defaultSymbols : Nat) (blank : Symbol) : Except DecodeError Machine :=
  decodeOn e.code (e.symbols.getD defaultSymbols) blank

end Entry

end Holdout.Listing
