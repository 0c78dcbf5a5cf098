import PerfDrift.Document.Basic
import PerfDrift.Number.Numeral

/-! Reading JSON.

The reader turns text into a document and never fails: where the text stops being
JSON the document is marked, and nothing after that place is read. Scalars are read
as a whole before anyone looks at their kind; texts with an unpaired surrogate and
numbers beyond binary64 are well-formed and marked as such.

Readers return what they read and the characters after it, `none` once the text has
gone wrong. Nesting is bounded by `fuel`, of which `read` gives as much as the text
has characters: every level of nesting takes a bracket of its own. -/
namespace PerfDrift.Json

/-- The four characters of JSON white space. -/
def isSpace (c : Char) : Bool := c = ' ' || c = '\t' || c = '\n' || c = '\r'

def skipSpace (cs : List Char) : List Char := cs.dropWhile isSpace

/-- The characters after a given beginning. -/
def expect : List Char → List Char → Option (List Char)
  | [], cs => some cs
  | _ :: _, [] => none
  | w :: ws, c :: cs => if w = c then expect ws cs else none

/-! ### Numbers -/

def digitOf (c : Char) : Nat := c.toNat - '0'.toNat

/-- The digits at the beginning, and the characters after them. -/
def takeDigits (cs : List Char) : List Nat × List Char :=
  ((cs.takeWhile Char.isDigit).map digitOf, cs.dropWhile Char.isDigit)

/-- The whole part of a numeral: one zero, or digits that do not begin with one. -/
def wholePart (cs : List Char) : Option (List Nat × List Char) :=
  match takeDigits cs with
  | ([], _) => none
  | (0 :: _ :: _, _) => none
  | (ds, rest) => some (ds, rest)

/-- The part after a point, if there is a point. -/
def fractionPart : List Char → Option (Option (List Nat) × List Char)
  | '.' :: cs =>
    match takeDigits cs with
    | ([], _) => none
    | (ds, rest) => some (some ds, rest)
  | cs => some (none, cs)

/-- The digits of an exponent after its sign. -/
def exponentDigits (down : Bool) (cs : List Char) : Option (Option (Bool × Nat) × List Char) :=
  match takeDigits cs with
  | ([], _) => none
  | (ds, rest) => some (some (down, ofDigits ds), rest)

/-- The exponent, if there is one. -/
def exponentPart : List Char → Option (Option (Bool × Nat) × List Char)
  | c :: cs =>
    if c = 'e' || c = 'E' then
      match cs with
      | '+' :: rest => exponentDigits false rest
      | '-' :: rest => exponentDigits true rest
      | rest => exponentDigits false rest
    else some (none, c :: cs)
  | [] => some (none, [])

/-- A numeral after its sign. -/
def numeral (negative : Bool) (cs : List Char) : Option (Numeral × List Char) := do
  let (whole, cs) ← wholePart cs
  let (fraction, cs) ← fractionPart cs
  let (exponent, cs) ← exponentPart cs
  pure (⟨negative, whole, fraction, exponent⟩, cs)

/-- The document of a numeral. -/
def numberOf (n : Numeral) : Document :=
  match n.quick with
  | .integer i => .number (.integer i)
  | .real x => .number (.real x)
  | .beyond => .beyond

/-! ### Texts -/

def hexDigit? (c : Char) : Option Nat :=
  if c.isDigit then some (c.toNat - '0'.toNat)
  else if 'a' ≤ c ∧ c ≤ 'f' then some (c.toNat - 'a'.toNat + 10)
  else if 'A' ≤ c ∧ c ≤ 'F' then some (c.toNat - 'A'.toNat + 10)
  else none

/-- The unit that four hexadecimal digits name. -/
def fourHex (a b c d : Char) : Option Nat := do
  let a ← hexDigit? a
  let b ← hexDigit? b
  let c ← hexDigit? c
  let d ← hexDigit? d
  pure (((a * 16 + b) * 16 + c) * 16 + d)

/-- What a letter after a backslash stands for. -/
def escaped? : Char → Option Nat
  | '"' => some 0x22
  | '\\' => some 0x5C
  | '/' => some 0x2F
  | 'b' => some 0x08
  | 'f' => some 0x0C
  | 'n' => some 0x0A
  | 'r' => some 0x0D
  | 't' => some 0x09
  | _ => none

/-- The units of a text up to its closing quote: code points, and surrogates that
escapes name. -/
def textUnits : List Char → Option (List Nat × List Char)
  | [] => none
  | '"' :: rest => some ([], rest)
  | '\\' :: 'u' :: a :: b :: c :: d :: rest => do
    let u ← fourHex a b c d
    let (us, rest) ← textUnits rest
    pure (u :: us, rest)
  | '\\' :: e :: rest => do
    let u ← escaped? e
    let (us, rest) ← textUnits rest
    pure (u :: us, rest)
  | c :: rest =>
    if c.toNat < 0x20 then none
    else do
      let (us, rest) ← textUnits rest
      pure (c.toNat :: us, rest)

def isHigh (u : Nat) : Bool := 0xD800 ≤ u && u ≤ 0xDBFF

def isLow (u : Nat) : Bool := 0xDC00 ≤ u && u ≤ 0xDFFF

/-- The characters of units, pairs of surrogates joined; `none` if half of a pair is
left over. -/
def joinUnits : List Nat → Option (List Char)
  | [] => some []
  | [u] => if isHigh u || isLow u then none else some [Char.ofNat u]
  | u :: v :: rest =>
    if isHigh u then
      if isLow v then
        (joinUnits rest).map (Char.ofNat (0x10000 + (u - 0xD800) * 0x400 + (v - 0xDC00)) :: ·)
      else none
    else if isLow u then none
    else (joinUnits (v :: rest)).map (Char.ofNat u :: ·)

/-- A text after its opening quote; the inner `none` is an unpaired surrogate. -/
def text (cs : List Char) : Option (Option String × List Char) := do
  let (us, rest) ← textUnits cs
  pure ((joinUnits us).map String.ofList, rest)

/-! ### Values -/

/-- A word that stands for a value. -/
def word (w : String) (d : Document) (cs : List Char) : Document × Option (List Char) :=
  match expect w.toList cs with
  | some rest => (d, some rest)
  | none => (.broken, none)

/-- A value that is neither a list nor a record. -/
def scalar (cs : List Char) : Document × Option (List Char) :=
  match cs with
  | '"' :: rest =>
    match text rest with
    | some (some s, rest) => (.text s, some rest)
    | some (none, rest) => (.unpaired, some rest)
    | none => (.broken, none)
  | 'n' :: _ => word "null" .null cs
  | 't' :: _ => word "true" (.flag true) cs
  | 'f' :: _ => word "false" (.flag false) cs
  | '-' :: rest =>
    match numeral true rest with
    | some (n, rest) => (numberOf n, some rest)
    | none => (.broken, none)
  | _ =>
    match numeral false cs with
    | some (n, rest) => (numberOf n, some rest)
    | none => (.broken, none)

/-- The name of a member and the colon after it: the name, `none` if no text stands
in its place, and the characters after the colon. -/
def memberName (cs : List Char) : Option Name × Option (List Char) :=
  match cs with
  | '"' :: rest =>
    match text rest with
    | some (s, rest) =>
      let name : Name := match s with
        | some s => .text s
        | none => .unpaired
      match skipSpace rest with
      | ':' :: rest => (some name, some rest)
      | _ => (some name, none)
    | none => (none, none)
  | _ => (none, none)

mutual

/-- A value. -/
def value : (fuel : Nat) → List Char → Document × Option (List Char)
  | 0, _ => (.broken, none)
  | fuel + 1, cs =>
    match skipSpace cs with
    | '[' :: rest =>
      let (ds, ending, rest) := items fuel true rest
      (.list ds ending, rest)
    | '{' :: rest =>
      let (ms, ending, rest) := members fuel true rest
      (.record ms ending, rest)
    | cs => scalar cs

/-- The items of a list up to its closing bracket; `first` before the first one. -/
def items : (fuel : Nat) → (first : Bool) → List Char →
    List Document × Ending × Option (List Char)
  | 0, _, _ => ([], .cut, none)
  | fuel + 1, first, cs =>
    match first, skipSpace cs with
    | _, ']' :: rest => ([], .closed, some rest)
    | true, cs => item fuel cs
    | false, ',' :: rest =>
      match skipSpace rest with
      | ']' :: _ => ([], .cut, none)
      | cs => item fuel cs
    | false, _ => ([], .cut, none)

/-- An item and those after it. -/
def item : (fuel : Nat) → List Char → List Document × Ending × Option (List Char)
  | 0, _ => ([], .cut, none)
  | fuel + 1, cs =>
    match value fuel cs with
    | (d, none) => ([d], .cut, none)
    | (d, some rest) =>
      let (ds, ending, rest) := items fuel false rest
      (d :: ds, ending, rest)

/-- The members of a record up to its closing brace; `first` before the first one. -/
def members : (fuel : Nat) → (first : Bool) → List Char →
    List (Name × Document) × Ending × Option (List Char)
  | 0, _, _ => ([], .cut, none)
  | fuel + 1, first, cs =>
    match first, skipSpace cs with
    | _, '\x7d' :: rest => ([], .closed, some rest)
    | true, cs => member fuel cs
    | false, ',' :: rest =>
      match skipSpace rest with
      | '\x7d' :: _ => ([], .cut, none)
      | cs => member fuel cs
    | false, _ => ([], .cut, none)

/-- A member and those after it. -/
def member : (fuel : Nat) → List Char →
    List (Name × Document) × Ending × Option (List Char)
  | 0, _ => ([], .cut, none)
  | fuel + 1, cs =>
    match memberName cs with
    | (none, _) => ([], .cut, none)
    | (some name, none) => ([(name, .broken)], .cut, none)
    | (some name, some rest) =>
      match value fuel rest with
      | (d, none) => ([(name, d)], .cut, none)
      | (d, some rest) =>
        let (ms, ending, rest) := members fuel false rest
        ((name, d) :: ms, ending, rest)

end

/-- The document of a text, and whether nothing but white space follows it. -/
def read (s : String) : Document × Bool :=
  let cs := s.toList
  match value (3 * cs.length + 3) cs with
  | (d, none) => (d, false)
  | (d, some rest) => (d, (skipSpace rest).isEmpty)

end PerfDrift.Json
