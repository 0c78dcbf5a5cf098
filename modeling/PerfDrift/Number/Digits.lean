/-! Decimal digits of binary64 numbers.

A finite number is a whole multiple of a power of two, `mantissa · 2 ^ exponent`.
Two questions are asked of it in exact integer arithmetic: which decimal with the
fewest digits reads back as the number (`shortest`), and which whole number of
units of `10 ^ -places` is nearest to it (`inUnits`). Two answers may be equally
near; a `Tie` says which of them is taken. -/
namespace PerfDrift

/-- A positive number `mantissa · 2 ^ exponent`. -/
structure Binary where
  mantissa : Nat
  exponent : Int
deriving DecidableEq, Repr

/-- The least mantissa of a number that has all its binary digits, `2 ^ 52`. -/
def leastNormal : Nat := 0x10000000000000

/-- The sign and magnitude of a finite binary64 number; the sign is that of the
bit pattern, so that `-0.0` has one. -/
def Binary.ofFloat (x : Float) : Bool × Binary :=
  let bits : Nat := x.toBits.toNat
  let field : Nat := bits / leastNormal % 0x800
  let fraction : Nat := bits % leastNormal
  (decide (0x8000000000000000 ≤ bits),
    if field = 0 then ⟨fraction, -1074⟩ else ⟨leastNormal + fraction, (field : Int) - 1075⟩)

/-- A quotient of naturals. -/
structure Ratio where
  num : Nat
  den : Nat
deriving DecidableEq, Repr

/-- `m · 2 ^ e`. -/
def Ratio.ofBinary (m : Nat) (e : Int) : Ratio :=
  if 0 ≤ e then ⟨m * Nat.pow 2 e.toNat, 1⟩ else ⟨m, Nat.pow 2 (-e).toNat⟩

/-- The quotient in units of `10 ^ k`. -/
def Ratio.inPowers (r : Ratio) (k : Int) : Ratio :=
  if 0 ≤ k then ⟨r.num, r.den * Nat.pow 10 k.toNat⟩ else ⟨r.num * Nat.pow 10 (-k).toNat, r.den⟩

/-- The whole part. -/
def Ratio.floor (r : Ratio) : Nat := r.num / r.den

/-- Which of two equally near neighbours is taken. -/
inductive Tie where
  /-- The one whose last digit is even. -/
  | even
  /-- The greater one. -/
  | up
deriving DecidableEq, Repr

/-- The choice between `below` and the number after it. -/
def Tie.settle : Tie → (below : Nat) → Nat
  | .even, below => if below % 2 = 0 then below else below + 1
  | .up, below => below + 1

/-- The nearest whole number. -/
def Ratio.round (tie : Tie) (r : Ratio) : Nat :=
  let below := r.num / r.den
  let excess := 2 * (r.num % r.den)
  if excess < r.den then below
  else if r.den < excess then below + 1
  else tie.settle below

/-- The reals that round to a number, as quotients; the ends belong to them when
the mantissa is even. -/
structure Interval where
  low : Ratio
  high : Ratio
  closed : Bool
deriving Repr

/-- Half way to both neighbours. Below a power of two the neighbour is half as far. -/
def Binary.interval (b : Binary) : Interval :=
  let low :=
    if b.mantissa = leastNormal ∧ -1074 < b.exponent
    then Ratio.ofBinary (4 * b.mantissa - 1) (b.exponent - 2)
    else Ratio.ofBinary (2 * b.mantissa - 1) (b.exponent - 1)
  ⟨low, Ratio.ofBinary (2 * b.mantissa + 1) (b.exponent - 1), b.mantissa % 2 = 0⟩

/-- Whether `n` units of `10 ^ k` lie in the interval. -/
def Interval.contains (i : Interval) (n : Nat) (k : Int) : Bool :=
  let low := i.low.inPowers k
  let high := i.high.inPowers k
  if i.closed then decide (low.num ≤ n * low.den) && decide (n * high.den ≤ high.num)
  else decide (low.num < n * low.den) && decide (n * high.den < high.num)

/-- The number of decimal digits of the whole part, or one less than minus the
zeros after the point: `10 ^ (r.magnitude - 1) ≤ r < 10 ^ r.magnitude`. The
estimate from the binary length is off by at most one either way. -/
def Ratio.magnitude (r : Ratio) : Int :=
  let bits : Int := (Nat.log2 r.num : Int) - (Nat.log2 r.den : Int)
  let estimate := bits * 30103 / 100000
  let reaches (k : Int) : Bool := let s := r.inPowers k; decide (s.den ≤ s.num)
  if reaches (estimate + 1) then estimate + 2
  else if reaches estimate then estimate + 1
  else if reaches (estimate - 1) then estimate
  else estimate - 1

/-- A decimal `digits · 10 ^ scale`. -/
structure Decimal where
  digits : Nat
  scale : Int
deriving DecidableEq, Repr

/-- The decimal on the grid of `10 ^ k` that lies in the interval nearest to `r`. -/
def gridPoint? (tie : Tie) (r : Ratio) (i : Interval) (k : Int) : Option Decimal :=
  let s := r.inPowers k
  let below := s.floor
  match i.contains below k, i.contains (below + 1) k with
  | true, true => some ⟨s.round tie, k⟩
  | true, false => some ⟨below, k⟩
  | false, true => some ⟨below + 1, k⟩
  | false, false => none

/-- The first grid with a point in the interval, going from coarse to fine for at
most `fuel` grids. -/
def coarsest (tie : Tie) (r : Ratio) (i : Interval) : Nat → Int → Decimal
  | 0, k => ⟨(r.inPowers k).round tie, k⟩
  | fuel + 1, k =>
    match gridPoint? tie r i k with
    | some d => d
    | none => coarsest tie r i fuel (k - 1)

/-- The decimal with the fewest digits that reads back as the number, the nearest
to it of those. Seventeen digits always suffice; the search starts one place
above the leading digit, where `9.7` may be reached as `10`. -/
def Binary.shortest (tie : Tie) (b : Binary) : Decimal :=
  if b.mantissa = 0 then ⟨0, 0⟩
  else
    let r := Ratio.ofBinary b.mantissa b.exponent
    coarsest tie r b.interval 18 r.magnitude

/-- The nearest whole number of units of `10 ^ -places`, the even one of two. -/
def Binary.inUnits (b : Binary) (places : Nat) : Nat :=
  ((Ratio.ofBinary b.mantissa b.exponent).inPowers (-(places : Int))).round .even

end PerfDrift
