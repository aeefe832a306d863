import ComponentKinds.Binary64.Basic

/-!
# Shortest decimals

A binary number is written with the fewest decimal digits that still read back as it.
The decimals that read back form an interval around the number, which holds its ends
exactly if the significand is even. On the grid of the multiples of a power of ten the
number has two neighbours, and if any point of the grid reads back, one of them does; of
two the nearer is taken, and the even one of two equally near. The first grid with a hit,
from coarse to fine, has the fewest digits.

Positional text is used for magnitudes from `10 ^ (-5)` to below `10 ^ 16` and keeps one
decimal place of a whole number; outside, an exponent with its sign follows the digits.
-/

namespace ComponentKinds.Binary64

/-- A decimal `digits * 10 ^ power`. -/
structure Decimal where
  /-- All digits as one number. -/
  digits : Nat
  /-- The power of ten that the digits count. -/
  power : Int
  deriving DecidableEq, Repr

/-- The exponent of the greatest power of ten that is not above the positive fraction. -/
def decimalOrder (num den : Nat) : Int :=
  let order : Int := ((Nat.toDigits 10 num).length : Int) - (Nat.toDigits 10 den).length
  let (scaled, unit) := rescale 10 order num den
  if scaled < unit then order - 1 else order

/-- The decimals that read back as a number, in quarters of the unit of its last digit:
the ends of the interval, the number itself, and whether the ends belong to it. -/
structure Interval where
  /-- The lower end. -/
  low : Nat
  /-- The number. -/
  mid : Nat
  /-- The upper end. -/
  high : Nat
  /-- Whether a decimal exactly at an end reads back. -/
  closed : Bool

/-- The interval reaches half a unit to each side, and half as far down from a significand
that is the least with its exponent. -/
def interval (x : Binary64) : Interval where
  low := if x.significand = 1 <<< 52 ∧ minExponent < x.exponent then 4 * x.significand - 1
    else 4 * x.significand - 2
  mid := 4 * x.significand
  high := 4 * x.significand + 2
  closed := x.significand % 2 = 0

/-- Whether `point / scale` lies in the interval. -/
def Interval.holds (i : Interval) (scale point : Nat) : Bool :=
  if i.closed then i.low * scale ≤ point ∧ point ≤ i.high * scale
  else i.low * scale < point ∧ point < i.high * scale

/-- The multiple of `10 ^ power` that reads back as the number: the nearer of its two
neighbours that do, and of two equally near the even one. -/
def onGrid? (x : Binary64) (power : Int) : Option Nat :=
  let i := x.interval
  let (tens, tenths) := rescale 10 (-power) 1 1
  let (step, scale) := rescale 2 (x.exponent - 2) tens tenths
  let mid := i.mid * scale
  let below := mid / step
  let down := mid - below * step
  let up := (below + 1) * step - mid
  match i.holds scale (below * step), i.holds scale ((below + 1) * step) with
  | true, true =>
    if down < up ∨ (down = up ∧ below % 2 = 0) then some below else some (below + 1)
  | true, false => some below
  | false, true => some (below + 1)
  | false, false => none

/-- The first hit among the grids from `10 ^ power` down to finer ones. Seventeen grids
below the number's own order always hold one, so the last case is not met from there. -/
def firstHit (x : Binary64) : Nat → Int → Decimal
  | 0, power => ⟨0, power⟩
  | grids + 1, power =>
    match x.onGrid? power with
    | some digits => ⟨digits, power⟩
    | none => firstHit x grids (power - 1)

/-- The decimal of the fewest digits that reads back as the number, without its sign. -/
def shortest (x : Binary64) : Decimal :=
  let (num, den) := rescale 2 (-x.exponent) x.significand 1
  let hit := x.firstHit 17 (decimalOrder num den)
  if hit.digits % 10 = 0 then ⟨hit.digits / 10, hit.power + 1⟩ else hit

/-- How a decimal is laid out: which magnitudes are written positionally. -/
structure Layout where
  /-- The least exponent of ten of the leading digit that is written positionally. -/
  least : Int
  /-- The exponent of ten of the leading digit from which on an exponent is written. -/
  bound : Int

/-- Magnitudes from `10 ^ (-5)` to below `10 ^ 16` are written positionally. -/
def layout : Layout := ⟨-5, 16⟩

/-- A decimal in text, with a point in any case unless an exponent follows one digit. -/
def Decimal.chars (d : Decimal) : List Char :=
  let digits := Nat.toDigits 10 d.digits
  let point := digits.length + d.power
  if layout.least < point ∧ point ≤ layout.bound then
    if point ≤ 0 then '0' :: '.' :: List.replicate point.natAbs '0' ++ digits
    else if 0 ≤ d.power then digits ++ List.replicate d.power.natAbs '0' ++ ['.', '0']
    else digits.take point.natAbs ++ '.' :: digits.drop point.natAbs
  else
    let lead := match digits with
      | first :: next :: rest => first :: '.' :: next :: rest
      | short => short
    let sign := if point ≤ 0 then '-' else '+'
    lead ++ 'e' :: sign :: Nat.toDigits 10 (point - 1).natAbs

/-- A number in text: its sign if that is minus, and the shortest decimal. -/
def chars (x : Binary64) : List Char :=
  let magnitude := if x.significand = 0 then ['0', '.', '0'] else x.shortest.chars
  if x.negative then '-' :: magnitude else magnitude

end ComponentKinds.Binary64
