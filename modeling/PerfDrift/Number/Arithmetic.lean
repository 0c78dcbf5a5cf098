/-! The numbers that measurements are compared in.

A comparison adds, divides and orders numbers, and it rounds: means and rates are
carried out in one number type, quantiles and spreads are rounded after every step
to a narrower working precision. `Arithmetic` lists what a comparison asks of its
numbers, so that one definition of a strategy runs on binary64 (`Float`) and is
read over exact numbers, where `narrow` changes nothing.

Rounding a binary64 sum, product, quotient or root of two binary32 numbers to
binary32 gives the binary32 result, since binary64 has more than twice the digits;
so `narrow` after each step is binary32 arithmetic. -/
namespace PerfDrift

/-- What a comparison asks of its numbers. Comparisons are answers, not
propositions: a number that is not a number is neither below, equal to nor above
anything. -/
class Arithmetic (α : Type) extends Add α, Sub α, Mul α, Div α, Neg α where
  /-- The number of a count. -/
  ofNat : Nat → α
  /-- The count `m` divided by `10 ^ e`, rounded once. -/
  ofDecimal : (m e : Nat) → α
  /-- The number without its sign. -/
  abs : α → α
  /-- The non-negative root. -/
  sqrt : α → α
  /-- The number in working precision. -/
  narrow : α → α
  /-- The whole part of a non-negative number. -/
  whole : α → Nat
  /-- Neither infinite nor undefined. -/
  isFinite : α → Bool
  /-- Strictly below. -/
  lt : α → α → Bool
  /-- Below or equal. -/
  le : α → α → Bool
  /-- Equal in value. -/
  eq : α → α → Bool
  /-- A total order that refines `lt`, also on numbers that `lt` does not order. -/
  totalOrder : α → α → Ordering

namespace Arithmetic
variable {α : Type} [Arithmetic α]

def zero : α := ofNat 0

def one : α := ofNat 1

/-- The smaller of two numbers, the first of two equal ones; an undefined number
gives way to the other. -/
def lesser (a b : α) : α := if lt b a then b else if eq a a then a else b

/-- The greater of two numbers, the first of two equal ones; an undefined number
gives way to the other. -/
def greater (a b : α) : α := if lt a b then b else if eq a a then a else b

/-- The nearest number in `[0, 1]`. -/
def clampUnit (x : α) : α := if lt x zero then zero else if lt one x then one else x

end Arithmetic

/-- The place of a binary64 number in the total order of its bit patterns: negative
patterns count down, so that `-0.0` is just below `0.0`. -/
def totalRank (x : Float) : Int :=
  if x.toBits < 0x8000000000000000 then (x.toBits.toNat : Int)
  else 0x7FFFFFFFFFFFFFFF - (x.toBits.toNat : Int)

/-- Binary64 arithmetic, with binary32 as its working precision. -/
instance : Arithmetic Float where
  ofNat n := Float.ofNat n
  ofDecimal m e := Float.ofScientific m true e
  abs := Float.abs
  sqrt := Float.sqrt
  narrow x := x.toFloat32.toFloat
  whole x := x.toUInt64.toNat
  isFinite := Float.isFinite
  lt := Float.lt
  le := Float.le
  eq := Float.beq
  totalOrder a b := compare (totalRank a) (totalRank b)

end PerfDrift
