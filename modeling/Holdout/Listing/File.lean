import Holdout.Listing.Reader

/-!
# Listings in files

A file is its bytes, and a listing is read from them when they are UTF-8.

* `textOf`   the text of a file that has been read, or could not be;
* `ofFile`   the entries of such a file.
-/

namespace Holdout.Listing

/-- the result of reading a file -/
abbrev FileResult := Except ReadFailure ByteArray

def textOf : FileResult → Except ReadFailure String
  | .error failure => .error failure
  | .ok bytes =>
    match String.fromUTF8? bytes with
    | some text => .ok text
    | none => .error .notText

def ofFile (path : String) (result : FileResult) : Except SourceError (List Entry) :=
  match textOf result with
  | .ok text => read text
  | .error failure => .error (.unreadable path failure)

end Holdout.Listing
