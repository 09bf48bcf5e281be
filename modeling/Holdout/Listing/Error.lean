import Holdout.Code.Error

/-!
# Why machines cannot be had

* `LineFault`     what is wrong with a line of a listing;
* `ReadFailure`   why a file cannot be read;
* `SourceError`   every reason why a source yields no machine, `SourceError.message` its wording.
-/

namespace Holdout.Listing

inductive LineFault where
  | missingCode
  | invalidSize (field : List Char)
  | unexpectedField (field : List Char)
  deriving DecidableEq

def LineFault.message : LineFault → String
  | .missingCode => "missing machine code"
  | .invalidSize field => "invalid alphabet size " ++ String.ofList (Text.quoted field)
  | .unexpectedField field => "unexpected field " ++ String.ofList (Text.quoted field)

inductive ReadFailure where
  | missing
  | notDirectory
  | isDirectory
  | notText
  /-- any other reason that the system gives -/
  | other (reason : String)
  deriving DecidableEq

def ReadFailure.reason : ReadFailure → String
  | .missing => "No such file or directory (os error 2)"
  | .notDirectory => "Not a directory (os error 20)"
  | .isDirectory => "Is a directory (os error 21)"
  | .notText => "stream did not contain valid UTF-8"
  | .other reason => reason

inductive SourceError where
  | undecodable (cause : DecodeError)
  | badLine (line : Nat) (fault : LineFault)
  | unknownMachine (name : String)
  | unreadable (path : String) (failure : ReadFailure)
  deriving DecidableEq

def SourceError.message : SourceError → String
  | .undecodable cause => "Decode error: " ++ cause.message
  | .badLine line fault =>
    "Validation error: Line " ++ Decimal.text line ++ ": " ++ fault.message
  | .unknownMachine name => "Validation error: Machine '" ++ name ++ "' not found"
  | .unreadable path failure =>
    "File error: Failed to read file " ++ path ++ ": " ++ failure.reason

end Holdout.Listing
