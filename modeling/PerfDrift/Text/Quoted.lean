import PerfDrift.Text.Hidden

/-! Quoted text in messages.

A message that shows a text quotes it on one line: a quote and a backslash take a
backslash, line ends, tabs and the null character their letter, and every other
hidden character its code point in braces. -/
namespace PerfDrift.Text

/-- The hexadecimal digits of a natural, in lower case. -/
def hexOf (n : Nat) : List Char := Nat.toDigits 16 n

/-- One character between the quotes. -/
def quoteChar (c : Char) : List Char :=
  if c = '"' then ['\\', '"']
  else if c = '\\' then ['\\', '\\']
  else if c = '\n' then ['\\', 'n']
  else if c = '\r' then ['\\', 'r']
  else if c = '\t' then ['\\', 't']
  else if c = '\x00' then ['\\', '0']
  else if isHidden c then ['\\', 'u', '\x7b'] ++ hexOf c.toNat ++ ['\x7d']
  else [c]

/-- The text between quotes. -/
def quote (s : String) : String :=
  String.ofList (['"'] ++ s.toList.flatMap quoteChar ++ ['"'])

end PerfDrift.Text
