/-! Dates and times of TOML.

A moment is a date, a time of day, or both, and then perhaps an offset from
universal time. It is read where it stands in a document (`read`) or from a text of
its own (`ofText?`), and written back in one form: `T` between date and time, a
capital `Z`, the fraction of a second without trailing zeros. -/
namespace PerfDrift.Toml

structure Date where
  year : Nat
  month : Nat
  day : Nat
deriving DecidableEq, Repr

structure Clock where
  hour : Nat
  minute : Nat
  second : Nat
  nanosecond : Nat
deriving DecidableEq, Repr

/-- The distance of local from universal time. -/
inductive Offset where
  | universal
  | minutes (n : Int)
deriving DecidableEq, Repr

structure Moment where
  date : Option Date
  clock : Option Clock
  offset : Option Offset
deriving DecidableEq, Repr

/-- The days of a month. -/
def daysIn (year month : Nat) : Nat :=
  if month = 2 then
    if year % 4 = 0 ∧ (year % 100 ≠ 0 ∨ year % 400 = 0) then 29 else 28
  else if month = 4 ∨ month = 6 ∨ month = 9 ∨ month = 11 then 30
  else 31

namespace Moment

/-! ### Writing -/

/-- A number with leading zeros to a width. -/
def padded (width n : Nat) : List Char :=
  let ds := (Nat.repr n).toList
  List.replicate (width - ds.length) '0' ++ ds

def dateText (d : Date) : List Char :=
  padded 4 d.year ++ ['-'] ++ padded 2 d.month ++ ['-'] ++ padded 2 d.day

/-- The fraction of a second without trailing zeros, nothing for a whole second. -/
def fractionText (nanosecond : Nat) : List Char :=
  if nanosecond = 0 then []
  else '.' :: ((padded 9 nanosecond).reverse.dropWhile (· = '0')).reverse

def clockText (c : Clock) : List Char :=
  padded 2 c.hour ++ [':'] ++ padded 2 c.minute ++ [':'] ++ padded 2 c.second
    ++ fractionText c.nanosecond

def offsetText : Offset → List Char
  | .universal => ['Z']
  | .minutes n =>
    [if n < 0 then '-' else '+'] ++ padded 2 (n.natAbs / 60) ++ [':'] ++ padded 2 (n.natAbs % 60)

/-- The written form. -/
def text (m : Moment) : String :=
  let date := (m.date.map dateText).getD []
  let clock := (m.clock.map clockText).getD []
  let join := if m.date.isSome ∧ m.clock.isSome then ['T'] else []
  String.ofList (date ++ join ++ clock ++ (m.offset.map offsetText).getD [])

/-! ### Reading -/

def digit? (c : Char) : Option Nat :=
  if c.isDigit then some (c.toNat - '0'.toNat) else none

/-- Exactly two digits. -/
def twoDigits : List Char → Option (Nat × List Char)
  | a :: b :: rest => do
    let a ← digit? a
    let b ← digit? b
    pure (10 * a + b, rest)
  | _ => none

/-- Exactly four digits. -/
def fourDigits (cs : List Char) : Option (Nat × List Char) := do
  let (a, cs) ← twoDigits cs
  let (b, cs) ← twoDigits cs
  pure (100 * a + b, cs)

/-- A number that must lie between two bounds. -/
def within (low high : Nat) (r : Option (Nat × List Char)) : Option (Nat × List Char) :=
  r.filter fun (n, _) => decide (low ≤ n) && decide (n ≤ high)

/-- A given character. -/
def char (c : Char) : List Char → Option (List Char)
  | d :: rest => if d = c then some rest else none
  | [] => none

def readDate (cs : List Char) : Option (Date × List Char) := do
  let (year, cs) ← fourDigits cs
  let cs ← char '-' cs
  let (month, cs) ← within 1 12 (twoDigits cs)
  let cs ← char '-' cs
  let (day, cs) ← within 1 (daysIn year month) (twoDigits cs)
  pure (⟨year, month, day⟩, cs)

/-- The nanoseconds of a fraction of a second; digits after the ninth are cut off. -/
def nanoseconds (ds : List Char) : Nat :=
  let kept := ds.take 9
  let n := kept.foldl (fun n c => 10 * n + (c.toNat - '0'.toNat)) 0
  n * Nat.pow 10 (9 - kept.length)

def readFraction : List Char → Option (Nat × List Char)
  | '.' :: cs =>
    let ds := cs.takeWhile Char.isDigit
    if ds.isEmpty then none else some (nanoseconds ds, cs.dropWhile Char.isDigit)
  | _ => none

/-- A time of day; a minute may have a leap second. -/
def readClock (cs : List Char) : Option (Clock × List Char) := do
  let (hour, cs) ← within 0 23 (twoDigits cs)
  let cs ← char ':' cs
  let (minute, cs) ← within 0 59 (twoDigits cs)
  let cs ← char ':' cs
  let (second, cs) ← within 0 60 (twoDigits cs)
  let (nanosecond, cs) := (readFraction cs).getD (0, cs)
  pure (⟨hour, minute, second, nanosecond⟩, cs)

/-- The hours and minutes of an offset after its sign. -/
def readDistance (cs : List Char) : Option (Nat × List Char) := do
  let (hour, cs) ← within 0 23 (twoDigits cs)
  let cs ← char ':' cs
  let (minute, cs) ← within 0 59 (twoDigits cs)
  pure (60 * hour + minute, cs)

/-- An offset, if one is written; a sign must be followed by a distance. -/
def readOffset : List Char → Option (Option Offset × List Char)
  | 'Z' :: cs => some (some .universal, cs)
  | 'z' :: cs => some (some .universal, cs)
  | '+' :: cs => (readDistance cs).map fun (n, cs) => (some (.minutes n), cs)
  | '-' :: cs => (readDistance cs).map fun (n, cs) => (some (.minutes (-(n : Int))), cs)
  | cs => some (none, cs)

/-- Whether a character may stand between a date and a time of day. -/
def joins (c : Char) : Bool := c = 'T' || c = 't' || c = ' '

/-- Whether a time of day begins here, so far as its first three characters tell. -/
def startsClock (cs : List Char) : Bool :=
  match within 0 23 (twoDigits cs) with
  | some (_, ':' :: _) => true
  | _ => false

/-- A moment at the beginning of the characters. A date that is not followed by a
time stands alone. -/
def read (cs : List Char) : Option (Moment × List Char) :=
  match readDate cs with
  | some (date, rest) =>
    match rest with
    | c :: after =>
      if joins c ∧ startsClock after then do
        let (clock, rest) ← readClock after
        let (offset, rest) ← readOffset rest
        pure (⟨some date, some clock, offset⟩, rest)
      else some (⟨some date, none, none⟩, rest)
    | [] => some (⟨some date, none, none⟩, [])
  | none => do
    let (clock, rest) ← readClock cs
    pure (⟨none, some clock, none⟩, rest)

/-- The moment that a text is, from its first character to its last. -/
def ofText? (s : String) : Option Moment :=
  match read s.toList with
  | some (m, []) => some m
  | _ => none

end Moment
end PerfDrift.Toml
