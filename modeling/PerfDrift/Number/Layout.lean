import PerfDrift.Number.Digits

/-! How numbers are written.

A finite number is written from its shortest decimal in one of three layouts, or
to two places. The layouts differ in when they use an exponent, in whether a whole
number shows a point and in which of two equally near shortest decimals they take;
each is a `Layout` value, so that the decisions stand in one place. -/
namespace PerfDrift

/-- When an exponent is written, whether a whole number keeps a point, and which
digits are written where two choices are equally good. -/
structure Layout where
  /-- The least and the greatest exponent of the leading digit that is written
  without an exponent; `none` never writes one. -/
  positional : Option (Int × Int)
  /-- A whole number ends in `.0`. -/
  pointed : Bool
  /-- Which of two shortest decimals is taken when the number lies half way. -/
  tie : Tie
deriving DecidableEq, Repr

/-- Numbers in JSON text: an exponent from `1e+16` up and from `9.9e-6` down. -/
def Layout.json : Layout := ⟨some (-5, 15), true, .even⟩

/-- Numbers in messages about thresholds: all digits, no exponent, no needless point. -/
def Layout.plain : Layout := ⟨none, false, .up⟩

/-- Numbers in messages about a configuration value of the wrong type. -/
def Layout.typed : Layout := ⟨none, true, .up⟩

/-- The decimal digits of a natural. -/
def digitsOf (n : Nat) : List Char := (Nat.repr n).toList

/-- A decimal without exponent: the digits `ds` with the point after the first
`place` of them, or `-place` zeros before them. -/
def positionalText (ds : List Char) (place : Int) (pointed : Bool) : List Char :=
  if place ≤ 0 then ['0', '.'] ++ List.replicate (-place).toNat '0' ++ ds
  else
    let n := place.toNat
    if ds.length ≤ n then
      ds ++ List.replicate (n - ds.length) '0' ++ (if pointed then ['.', '0'] else [])
    else ds.take n ++ ['.'] ++ ds.drop n

/-- A decimal with exponent: one digit before the point, the exponent signed. -/
def exponentText (ds : List Char) (exponent : Int) : List Char :=
  let tail := match ds with
    | [] => []
    | [d] => [d]
    | d :: rest => d :: '.' :: rest
  tail ++ ['e', if exponent < 0 then '-' else '+'] ++ digitsOf exponent.natAbs

/-- A non-negative decimal in the layout. -/
def Layout.write (l : Layout) (d : Decimal) : List Char :=
  if d.digits = 0 then (if l.pointed then ['0', '.', '0'] else ['0'])
  else
    let ds := digitsOf d.digits
    let place : Int := ds.length + d.scale
    match l.positional with
    | none => positionalText ds place l.pointed
    | some (least, greatest) =>
      if least ≤ place - 1 ∧ place - 1 ≤ greatest then positionalText ds place l.pointed
      else exponentText ds (place - 1)

/-- The name of a number that is not finite. -/
def unboundedName (x : Float) : String :=
  if x.isNaN then "NaN" else if x < 0 then "-inf" else "inf"

/-- A number in the layout, its shortest digits after its sign. -/
def Layout.text (l : Layout) (x : Float) : String :=
  if x.isFinite then
    let (negative, magnitude) := Binary.ofFloat x
    String.ofList ((if negative then ['-'] else []) ++ l.write (magnitude.shortest l.tie))
  else unboundedName x

/-- A whole number of hundredths with its point. -/
def hundredthsText (n : Nat) : List Char :=
  let ds := digitsOf n
  let padded := List.replicate (3 - ds.length) '0' ++ ds
  padded.take (padded.length - 2) ++ ['.'] ++ padded.drop (padded.length - 2)

/-- A number to two places, the exact binary value rounded to the nearest
hundredth and to the even one of two; the sign survives rounding to zero. With
`signed`, a plus sign stands before what has no minus sign. -/
def twoPlaces (signed : Bool) (x : Float) : String :=
  if x.isNaN then "NaN"
  else
    let (negative, magnitude) := Binary.ofFloat x
    let sign := if negative then "-" else if signed then "+" else ""
    if x.isFinite then sign ++ String.ofList (hundredthsText (magnitude.inUnits 2))
    else sign ++ "inf"

end PerfDrift
