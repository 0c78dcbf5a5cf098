/-! Decimal numerals and the numbers they are read as.

A numeral is its digits before and after the point and its exponent. Two readings
are in use. The exact one rounds the decimal once. The quick one, which JSON
documents are read by, takes as many leading digits as fit into 64 bits, rounds
them to binary64 and scales them by one rounded power of ten: it agrees with the
exact one for numerals of up to fifteen digits and small exponents, and may be one
unit off in the last place beyond. -/
namespace PerfDrift

/-- A decimal numeral: sign, digits before and after the point, and the exponent
with its sign where one is written. -/
structure Numeral where
  negative : Bool
  whole : List Nat
  fraction : Option (List Nat)
  exponent : Option (Bool × Nat)
deriving DecidableEq, Repr

/-- The number of a digit list, the most significant digit first. -/
def ofDigits (ds : List Nat) : Nat := ds.foldl (fun n d => 10 * n + d) 0

/-- A number with the sign of its numeral. -/
def signed (negative : Bool) (x : Float) : Float := if negative then -x else x

/-! ### The exact reading -/

/-- The decimal `m · 10 ^ e` rounded once. Exponents far outside the range of
binary64 are decided without the power. -/
def scaledExactly (m : Nat) (e : Int) : Float :=
  let size : Int := (Nat.repr m).length + e
  if m = 0 ∨ size < -330 then 0
  else if 330 < size then 1 / 0
  else if 0 ≤ e then Float.ofScientific m false e.toNat
  else Float.ofScientific m true (-e).toNat

/-- The written exponent as a number. -/
def Numeral.power (n : Numeral) : Int :=
  match n.exponent with
  | none => 0
  | some (down, e) => if down then -(e : Int) else e

/-- The nearest binary64 number, infinite when the numeral is beyond all of them. -/
def Numeral.exact (n : Numeral) : Float :=
  let fraction := n.fraction.getD []
  signed n.negative (scaledExactly (ofDigits (n.whole ++ fraction)) (n.power - fraction.length))

/-! ### The quick reading -/

/-- The digits `ds` appended to `n` for as long as the result fits into 64 bits,
and the digits left over. -/
def appendFitting : Nat → List Nat → Nat × List Nat
  | n, [] => (n, [])
  | n, d :: ds => if 10 * n + d < 0x10000000000000000 then appendFitting (10 * n + d) ds else (n, d :: ds)

/-- `10 ^ e`, rounded once. -/
def powerOfTen (e : Nat) : Float := Float.ofScientific 1 false e

/-- The significand scaled by a power of ten; `none` when it leaves the range of
binary64. Exponents below `-308` take a division of their own for every 308. -/
def scaledQuickly (significand : Nat) (e : Int) : Option Float :=
  let f := (UInt64.ofNat significand).toFloat
  if 0 ≤ e then
    if e ≤ 308 then
      let g := f * powerOfTen e.toNat
      if g.isFinite then some g else none
    else if significand = 0 then some 0 else none
  else if -308 ≤ e then some (f / powerOfTen (-e).toNat)
  else if -616 ≤ e then some (f / powerOfTen 308 / powerOfTen (-e - 308).toNat)
  else some 0

/-- What a numeral is read as: a whole number where it is written as one and fits
into 64 bits, else a binary64 number. -/
inductive Reading
  | integer (i : Int)
  | real (x : Float)
  /-- The numeral is beyond the range of binary64. -/
  | beyond

/-- The greatest exponent that is scaled by at all. -/
def exponentLimit : Nat := 2147483647

/-- The quick reading. A negative zero and whole numbers that do not fit are
binary64 numbers. -/
def Numeral.quick (n : Numeral) : Reading :=
  let (significand, overflow) := appendFitting 0 n.whole
  match n.fraction, n.exponent, overflow with
  | none, none, [] =>
    if n.negative then
      if significand = 0 ∨ 0x8000000000000000 < significand
      then .real (-(UInt64.ofNat significand).toFloat)
      else .integer (-(significand : Int))
    else .integer significand
  | fraction, exponent, _ =>
    let ds := fraction.getD []
    let (significand, dropped) := appendFitting significand ds
    let point : Int := (overflow.length : Int) - ((ds.length - dropped.length : Nat) : Int)
    let scaled := match exponent with
      | none => scaledQuickly significand point
      | some (down, e) =>
        if exponentLimit < e then (if significand = 0 ∨ down then some 0 else none)
        else scaledQuickly significand (if down then point - e else point + e)
    match scaled with
    | some x => .real (signed n.negative x)
    | none => .beyond

end PerfDrift
