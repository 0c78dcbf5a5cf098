import PerfDrift.Number.Numeral
import PerfDrift.Toml.Value

/-! The words of TOML: blanks, comments, texts, keys and numbers.

Every reader takes the characters from where it stands and returns what it read and
the characters after it; `none` means that the document is malformed. -/
namespace PerfDrift.Toml

/-- A reader of `α`. -/
abbrev Reader (α : Type) := List Char → Option (α × List Char)

/-! ### Blanks and lines -/

def isSpace (c : Char) : Bool := c = ' ' || c = '\t'

def skipSpace (cs : List Char) : List Char := cs.dropWhile isSpace

/-- A character that a comment may hold. -/
def isCommentChar (c : Char) : Bool :=
  c = '\t' || (0x20 ≤ c.toNat && c.toNat ≠ 0x7F)

/-- The characters after a line end. -/
def newline? : List Char → Option (List Char)
  | '\n' :: rest => some rest
  | '\r' :: '\n' :: rest => some rest
  | _ => none

/-- The characters after the end of the line or of the document. -/
def lineEnd? : List Char → Option (List Char)
  | [] => some []
  | cs => newline? cs

/-- The characters after a comment, which begins with `#`. -/
def skipComment (cs : List Char) : List Char := cs.dropWhile isCommentChar

/-- What may follow a header or a value on its line: blanks and a comment. -/
def restOfLine? (cs : List Char) : Option (List Char) :=
  match skipSpace cs with
  | '#' :: rest => lineEnd? (skipComment rest)
  | cs => lineEnd? cs

/-- Skips blanks, line ends and comments for at most `fuel` lines. -/
def skipLines : (fuel : Nat) → List Char → Option (List Char)
  | 0, cs => some cs
  | fuel + 1, cs =>
    match skipSpace cs with
    | '#' :: rest =>
      match newline? (skipComment rest) with
      | some rest => skipLines fuel rest
      | none => none
    | cs =>
      match newline? cs with
      | some rest => skipLines fuel rest
      | none => some cs

/-! ### Texts -/

/-- A character that a quoted text may hold as it is, other than its quote. -/
def isTextChar (c : Char) : Bool :=
  c = '\t' || (0x20 ≤ c.toNat && c.toNat ≠ 0x7F)

def hexValue? (c : Char) : Option Nat :=
  if c.isDigit then some (c.toNat - '0'.toNat)
  else if 'a' ≤ c ∧ c ≤ 'f' then some (c.toNat - 'a'.toNat + 10)
  else if 'A' ≤ c ∧ c ≤ 'F' then some (c.toNat - 'A'.toNat + 10)
  else none

/-- The number of exactly `n` hexadecimal digits. -/
def hexNumber : (n : Nat) → (acc : Nat) → Reader Nat
  | 0, acc, cs => some (acc, cs)
  | n + 1, acc, c :: cs =>
    match hexValue? c with
    | some d => hexNumber n (16 * acc + d) cs
    | none => none
  | _ + 1, _, [] => none

/-- The character of a code point, if it is one. -/
def charOf? (n : Nat) : Option Char :=
  if n < 0xD800 ∨ (0xDFFF < n ∧ n < 0x110000) then some (Char.ofNat n) else none

/-- The character that an escape stands for, after the backslash. -/
def escape : Reader Char
  | 'b' :: cs => some ('\x08', cs)
  | 't' :: cs => some ('\t', cs)
  | 'n' :: cs => some ('\n', cs)
  | 'f' :: cs => some ('\x0c', cs)
  | 'r' :: cs => some ('\r', cs)
  | '"' :: cs => some ('"', cs)
  | '\\' :: cs => some ('\\', cs)
  | 'u' :: cs => do
    let (n, cs) ← hexNumber 4 0 cs
    let c ← charOf? n
    pure (c, cs)
  | 'U' :: cs => do
    let (n, cs) ← hexNumber 8 0 cs
    let c ← charOf? n
    pure (c, cs)
  | _ => none

/-- A text on one line after its opening double quote. -/
def basicBody : (fuel : Nat) → Reader (List Char)
  | 0, _ => none
  | _, [] => none
  | fuel + 1, c :: cs =>
    if c = '"' then some ([], cs)
    else if c = '\\' then do
      let (e, cs) ← escape cs
      let (body, cs) ← basicBody fuel cs
      pure (e :: body, cs)
    else if isTextChar c then do
      let (body, cs) ← basicBody fuel cs
      pure (c :: body, cs)
    else none

/-- A text on one line after its opening single quote. -/
def literalBody : Reader (List Char)
  | [] => none
  | c :: cs =>
    if c = '\'' then some ([], cs)
    else if isTextChar c then do
      let (body, cs) ← literalBody cs
      pure (c :: body, cs)
    else none

/-- The end of a text over several lines: of a run of three to five quotes the last
three close it and the others belong to it. -/
def closing? (quote : Char) (cs : List Char) : Option (List Char × List Char) :=
  let run := (cs.takeWhile (· = quote)).length
  if run < 3 then none
  else
    let extra := min (run - 3) 2
    some (List.replicate extra quote, cs.drop (extra + 3))

/-- Skips blanks and line ends. -/
def skipBlankLines : List Char → List Char
  | ' ' :: cs | '\t' :: cs | '\n' :: cs | '\r' :: '\n' :: cs => skipBlankLines cs
  | cs => cs

/-- Skips what a backslash at the end of a line takes away: the blanks up to the next
character that is none, however many lines down. -/
def joinLines? (cs : List Char) : Option (List Char) :=
  (newline? (skipSpace cs)).map skipBlankLines

/-- A text over several lines after its opening double quotes. -/
def longBasicBody : (fuel : Nat) → Reader (List Char)
  | 0, _ => none
  | _, [] => none
  | fuel + 1, c :: cs =>
    if c = '"' then
      match closing? '"' (c :: cs) with
      | some closed => some closed
      | none => do
        let (body, cs) ← longBasicBody fuel cs
        pure (c :: body, cs)
    else if c = '\\' then
      match joinLines? cs with
      | some cs => longBasicBody fuel cs
      | none => do
        let (e, cs) ← escape cs
        let (body, cs) ← longBasicBody fuel cs
        pure (e :: body, cs)
    else match newline? (c :: cs) with
      | some cs => do
        let (body, cs) ← longBasicBody fuel cs
        pure ('\n' :: body, cs)
      | none =>
        if isTextChar c then do
          let (body, cs) ← longBasicBody fuel cs
          pure (c :: body, cs)
        else none

/-- A text over several lines after its opening single quotes. -/
def longLiteralBody : (fuel : Nat) → Reader (List Char)
  | 0, _ => none
  | _, [] => none
  | fuel + 1, c :: cs =>
    if c = '\'' then
      match closing? '\'' (c :: cs) with
      | some closed => some closed
      | none => do
        let (body, cs) ← longLiteralBody fuel cs
        pure (c :: body, cs)
    else match newline? (c :: cs) with
      | some cs => do
        let (body, cs) ← longLiteralBody fuel cs
        pure ('\n' :: body, cs)
      | none =>
        if isTextChar c then do
          let (body, cs) ← longLiteralBody fuel cs
          pure (c :: body, cs)
        else none

/-- A text over several lines begins on the line after its quotes. -/
def skipFirstLineEnd (cs : List Char) : List Char := (newline? cs).getD cs

/-- A text value; `none` also where no quote begins. -/
def textValue : Reader String
  | '"' :: '"' :: '"' :: cs =>
    (longBasicBody (cs.length + 1) (skipFirstLineEnd cs)).map fun (b, cs) => (String.ofList b, cs)
  | '"' :: cs => (basicBody (cs.length + 1) cs).map fun (b, cs) => (String.ofList b, cs)
  | '\'' :: '\'' :: '\'' :: cs =>
    (longLiteralBody (cs.length + 1) (skipFirstLineEnd cs)).map fun (b, cs) => (String.ofList b, cs)
  | '\'' :: cs => (literalBody cs).map fun (b, cs) => (String.ofList b, cs)
  | _ => none

/-! ### Keys -/

def isBareKeyChar (c : Char) : Bool :=
  ('A' ≤ c && c ≤ 'Z') || ('a' ≤ c && c ≤ 'z') || c.isDigit || c = '-' || c = '_'

/-- One part of a key, between blanks. -/
def keyPart (cs : List Char) : Option (String × List Char) := do
  let cs := skipSpace cs
  let (part, cs) ← match cs with
    | '"' :: rest => basicBody (rest.length + 1) rest
    | '\'' :: rest => literalBody rest
    | _ =>
      let part := cs.takeWhile isBareKeyChar
      if part.isEmpty then none else some (part, cs.dropWhile isBareKeyChar)
  pure (String.ofList part, skipSpace cs)

/-- The parts of a dotted key, for at most `fuel` of them. -/
def keyParts : (fuel : Nat) → Reader (List String)
  | 0, _ => none
  | fuel + 1, cs => do
    let (part, cs) ← keyPart cs
    match cs with
    | '.' :: rest => do
      let (parts, cs) ← keyParts fuel rest
      pure (part :: parts, cs)
    | cs => pure ([part], cs)

/-- How many tables deep a document may nest. -/
def depthLimit : Nat := 79

/-- A dotted key. -/
def dottedKey : Reader (List String) := keyParts depthLimit

/-! ### Numbers -/

/-- The digits of a number after its first one, single underscores between them
dropped. -/
def moreDigits (isDigit : Char → Bool) : Reader (List Char)
  | '_' :: c :: cs =>
    if isDigit c then do
      let (ds, cs) ← moreDigits isDigit cs
      pure (c :: ds, cs)
    else none
  | c :: cs =>
    if isDigit c then do
      let (ds, cs) ← moreDigits isDigit cs
      pure (c :: ds, cs)
    else if c = '_' then none
    else some ([], c :: cs)
  | [] => some ([], [])

/-- One digit or more. -/
def someDigits (isDigit : Char → Bool) : Reader (List Char)
  | c :: cs =>
    if isDigit c then do
      let (ds, cs) ← moreDigits isDigit cs
      pure (c :: ds, cs)
    else none
  | [] => none

/-- The digits before the point: one zero, or digits that do not begin with one. -/
def decimalDigits : Reader (List Char)
  | '0' :: cs => some (['0'], cs)
  | cs => someDigits Char.isDigit cs

/-- A sign, if there is one. -/
def takeSign : List Char → Bool × List Char
  | '+' :: cs => (false, cs)
  | '-' :: cs => (true, cs)
  | cs => (false, cs)

def digitValue (c : Char) : Nat := (hexValue? c).getD 0

/-- The number of digits in a base. -/
def inBase (base : Nat) (ds : List Char) : Nat := ds.foldl (fun n c => base * n + digitValue c) 0

/-- A whole number, if it fits into 64 bits. -/
def integerOf (negative : Bool) (n : Nat) : Option Value :=
  if negative then (if n ≤ 0x8000000000000000 then some (.integer (-(n : Int))) else none)
  else if n < 0x8000000000000000 then some (.integer n) else none

/-- A fraction after its point, if there is one. -/
def fractionOf : Reader (Option (List Nat))
  | '.' :: cs => do
    let (ds, cs) ← someDigits Char.isDigit cs
    pure (some (ds.map digitValue), cs)
  | cs => some (none, cs)

/-- An exponent after its letter, if there is one. -/
def exponentOf : Reader (Option (Bool × Nat))
  | c :: cs =>
    if c = 'e' || c = 'E' then do
      let (down, cs) := takeSign cs
      let (ds, cs) ← someDigits Char.isDigit cs
      pure (some (down, inBase 10 ds), cs)
    else some (none, c :: cs)
  | [] => some (none, [])

/-- A decimal number after its sign: whole if it has neither point nor exponent. Only
the positive infinity is refused as the reading of a numeral. -/
def decimalNumber (negative : Bool) (cs : List Char) : Option (Value × List Char) := do
  let (whole, cs) ← decimalDigits cs
  let (fraction, cs) ← fractionOf cs
  let (exponent, cs) ← exponentOf cs
  match fraction, exponent with
  | none, none =>
    let v ← integerOf negative (inBase 10 whole)
    pure (v, cs)
  | _, _ =>
    let x := Numeral.exact ⟨negative, whole.map digitValue, fraction, exponent⟩
    if x.isInf && !negative then none else pure (.float x, cs)

/-- Digits of a base after its mark. -/
def basedNumber (base : Nat) (isDigit : Char → Bool) (cs : List Char) :
    Option (Value × List Char) := do
  let (ds, cs) ← someDigits isDigit cs
  let v ← integerOf false (inBase base ds)
  pure (v, cs)

def isHexDigit (c : Char) : Bool := (hexValue? c).isSome

def isOctalDigit (c : Char) : Bool := '0' ≤ c && c ≤ '7'

def isBinaryDigit (c : Char) : Bool := c = '0' || c = '1'

/-- A number that has a name or digits. -/
def number (cs : List Char) : Option (Value × List Char) :=
  match cs with
  | '0' :: 'x' :: rest => basedNumber 16 isHexDigit rest
  | '0' :: 'o' :: rest => basedNumber 8 isOctalDigit rest
  | '0' :: 'b' :: rest => basedNumber 2 isBinaryDigit rest
  | _ =>
    let (negative, rest) := takeSign cs
    match rest with
    | 'i' :: 'n' :: 'f' :: rest => some (.float (signed negative (1 / 0)), rest)
    | 'n' :: 'a' :: 'n' :: rest => some (.float (0 / 0), rest)
    | rest => decimalNumber negative rest

end PerfDrift.Toml
