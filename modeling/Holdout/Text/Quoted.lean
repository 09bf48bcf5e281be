import Holdout.Text.Visible

/-!
# Quoted text

Characters and strings as they appear inside messages, between quotes.

* `escaped`      one character, given which quote is written after a backslash;
* `quotedChar`   a character between single quotes;
* `quoted`       a text between double quotes.

A character that does not show on its own is written by its code point in lower case hexadecimal
digits without leading zeros.
-/

namespace Holdout.Text

/-- one character between quotes of the given kind -/
def escaped (quote c : Char) : List Char :=
  if c = '\x00' then ['\\', '0']
  else if c = '\t' then ['\\', 't']
  else if c = '\r' then ['\\', 'r']
  else if c = '\n' then ['\\', 'n']
  else if c = '\\' then ['\\', '\\']
  else if c = quote then ['\\', quote]
  else if isVisible c then [c]
  else ['\\', 'u', '\x7b'] ++ Nat.toDigits 16 c.toNat ++ ['\x7d']

def quoted (cs : List Char) : List Char := '"' :: (cs.flatMap (escaped '"') ++ ['"'])

def quotedChar (c : Char) : List Char := '\'' :: (escaped '\'' c ++ ['\''])

end Holdout.Text
