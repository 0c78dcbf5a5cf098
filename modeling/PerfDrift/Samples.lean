import PerfDrift.Number.Arithmetic

/-! Statistics of samples.

Sums and means are taken from left to right. Quantiles and spreads are taken in
working precision: the samples are first placed in a frame, from the least sample
in units of the range, so that close samples stay apart there and large ones do not
overflow. Without samples every statistic is zero. -/
namespace PerfDrift.Samples
open Arithmetic
variable {α : Type} [Arithmetic α]

def sum (xs : List α) : α := xs.foldl (· + ·) zero

def mean (xs : List α) : α := if xs.isEmpty then zero else sum xs / ofNat xs.length

/-- The change relative to the baseline; there is none when the baseline is zero or
the change is beyond all numbers. -/
def relativeRate (baseline target : α) : Option α :=
  if eq baseline zero then none
  else
    let rate := (target - baseline) / baseline
    if isFinite rate then some rate else none

/-! ### Frames -/

/-- Where samples are placed: `offset` at zero, `offset + span` at one. -/
structure Frame (α : Type) where
  offset : α
  span : α

/-- The frame of samples of which the least and the greatest are known. One without
a finite beginning begins at zero, one without a finite extent is one wide. -/
def Frame.between (least greatest : α) : Frame α :=
  let span := greatest - least
  ⟨if isFinite least then least else zero, if lt zero span && isFinite span then span else one⟩

/-- The frame of samples. -/
def Frame.of : List α → Frame α
  | [] => ⟨zero, one⟩
  | x :: xs => .between (xs.foldl lesser x) (xs.foldl greater x)

/-- The place of a sample, in working precision. -/
def Frame.place (f : Frame α) (x : α) : α := narrow ((x - f.offset) / f.span)

/-- The number at a place. -/
def Frame.restore (f : Frame α) (x : α) : α := f.offset + x * f.span

/-! ### Quantiles -/

/-- The samples in ascending order. -/
def ascending (xs : List α) : List α := xs.mergeSort le

/-- The number at `h`, counted from zero, in an ascending list: a whole `h` names
one of its numbers, another one stands between two of them and divides their
distance. -/
def between (xs : List α) (h : α) : α :=
  let k := whole h
  let low := xs.getD k zero
  if eq h (ofNat k) then low
  else
    let share := narrow (h - ofNat k)
    narrow (low + narrow (share * narrow (xs.getD (k + 1) low - low)))

/-- The quantile at `q` of samples in working precision. It lies at `(n - 1) · q` in
their order. -/
def placedQuantile (xs : List α) (q : α) : α :=
  match xs with
  | [x] => x
  | xs => between (ascending xs) (ofNat (xs.length - 1) * q)

/-- The quantile at `q`; zero for a `q` outside `[0, 1]`. -/
def quantile (xs : List α) (q : α) : α :=
  if xs.isEmpty then zero
  else if le zero q && le q one then
    let f := Frame.of xs
    f.restore (placedQuantile (xs.map f.place) q)
  else zero

def median (xs : List α) : α := quantile xs (ofDecimal 5 1)

/-- The distance between the quartiles. -/
def interquartile (xs : List α) : α := quantile xs (ofDecimal 75 2) - quantile xs (ofDecimal 25 2)

/-! ### Spread -/

/-- The sum in working precision. -/
def narrowSum (xs : List α) : α := xs.foldl (fun s x => narrow (s + x)) zero

/-- The standard deviation of samples in working precision, as the root of the mean
square less the squared mean. -/
def deviation (xs : List α) : α :=
  let n : α := ofNat xs.length
  let mean := narrow (narrowSum xs / n)
  let square := narrow (narrowSum (xs.map fun x => narrow (x * x)) / n)
  narrow (sqrt (narrow (square - narrow (mean * mean))))

/-- The standard deviation relative to the mean. It is zero for fewer than two
samples, a mean within a millionth of zero and a spread beyond all numbers. -/
def variation (xs : List α) : α :=
  if xs.length < 2 then zero
  else
    let m := abs (mean xs)
    if lt m (ofDecimal 1 6) then zero
    else
      let f := Frame.of xs
      let cv := deviation (xs.map f.place) * f.span / m
      if isFinite cv then cv else zero

end PerfDrift.Samples
