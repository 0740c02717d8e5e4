import Rowflow.Text.Unprintable

/-!
# Quoted texts for people

A text between double quotes in which the quote, the backslash and the characters without a printed
form are written with a backslash. `quote` is the form in which option values appear in messages.
-/

namespace Rowflow.Text

/-- How a character stands between the quotes. -/
def quoteChar (c : Char) : List Char :=
  if c = '"' then ['\\', '"']
  else if c = '\\' then ['\\', '\\']
  else if c = '\n' then ['\\', 'n']
  else if c = '\t' then ['\\', 't']
  else if c = '\r' then ['\\', 'r']
  else if c = '\x00' then ['\\', '0']
  else if (' ' ≤ c && c ≤ '~') || !isUnprintable c then [c]
  else ['\\', 'u', '\x7b'] ++ Nat.toDigits 16 c.toNat ++ ['\x7d']

/-- The text between quotes. -/
def quote (s : String) : String :=
  String.ofList ('"' :: s.toList.flatMap quoteChar ++ ['"'])

end Rowflow.Text
