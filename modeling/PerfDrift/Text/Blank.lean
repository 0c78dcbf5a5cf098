/-! White space and case.

Names in configurations and on the command line are read without regard to the
white space around them and to the case of ASCII letters. White space is the
Unicode property of that name; no other letter changes case, so that a letter that
merely looks like an ASCII one stays what it is. -/
namespace PerfDrift.Text

/-- The Unicode property `White_Space`. -/
def isBlank (c : Char) : Bool :=
  let n := c.toNat
  (9 ≤ n && n ≤ 13) || n == 0x20 || n == 0x85 || n == 0xA0 || n == 0x1680 ||
    (0x2000 ≤ n && n ≤ 0x200A) || n == 0x2028 || n == 0x2029 || n == 0x202F ||
    n == 0x205F || n == 0x3000

/-- The characters without the blanks at the end. -/
def dropTrailing (cs : List Char) : List Char := (cs.reverse.dropWhile isBlank).reverse

/-- The characters between the blanks at both ends. -/
def trimChars (cs : List Char) : List Char := dropTrailing (cs.dropWhile isBlank)

/-- The text between the blanks at both ends. -/
def trim (s : String) : String := String.ofList (trimChars s.toList)

/-- The text with ASCII letters in lower case. -/
def lower (s : String) : String := String.ofList (s.toList.map Char.toLower)

end PerfDrift.Text
