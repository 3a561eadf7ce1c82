/-
This file finds the shortest decimal number that reads back as a given double.
-/

import Lox.Decimal.Binary

namespace Lox.Decimal

/-- A numeral is `digits * 10 ^ exponent`. -/
structure Numeral where
  digits : Nat
  exponent : Int
  deriving DecidableEq, Repr

/-- The real numbers that round to one double, in units of a common denominator. The bounds
belong to the interval when it is closed. -/
structure Interval where
  low : Nat
  middle : Nat
  high : Nat
  closed : Bool
  deriving DecidableEq, Repr

/-- The interval reaches half way to the neighbours, and the lower neighbour of a power of two
is only half as far away. The unit is a quarter of the last place. -/
def Interval.around (significand : Nat) (exponent : Int) : Interval where
  low :=
    if significand = Nat.pow 2 fractionBits && minExponent < exponent then 4 * significand - 1
    else 4 * significand - 2
  middle := 4 * significand
  high := 4 * significand + 2
  closed := significand % 2 = 0

def Interval.scale (factor : Nat) (interval : Interval) : Interval :=
  { interval with
    low := factor * interval.low
    middle := factor * interval.middle
    high := factor * interval.high }

def Interval.contains (interval : Interval) (point : Nat) : Bool :=
  if interval.closed then interval.low ≤ point && point ≤ interval.high
  else interval.low < point && point < interval.high

/-- The nearer of the two multiples of a unit around the middle, if it is in the interval. A
multiple that is equally far away gives way to the greater one. -/
def Interval.multiple? (interval : Interval) (unit : Nat) : Option Nat :=
  let below := interval.middle / unit
  let above := below + 1
  let remainder := interval.middle % unit
  match interval.contains (below * unit), interval.contains (above * unit) with
  | true, true => some (if 2 * remainder < unit then below else above)
  | true, false => some below
  | false, true => some above
  | false, false => none

/-- The interval and the unit `10 ^ place`, both in units of a common denominator. -/
def onGrid (significand : Nat) (exponent place : Int) : Interval × Nat :=
  let binary := exponent - 2
  ((Interval.around significand exponent).scale
      (Nat.pow 2 binary.toNat * Nat.pow 10 (-place).toNat),
    Nat.pow 2 (-binary).toNat * Nat.pow 10 place.toNat)

/-- The first place from the given one downwards that has a multiple in the interval. -/
def firstPlace (significand : Nat) (exponent : Int) : Nat → Int → Numeral
  | 0, place => ⟨significand * Nat.pow 2 exponent.toNat * Nat.pow 5 (-exponent).toNat, place⟩
  | count + 1, place =>
      let (interval, unit) := onGrid significand exponent place
      match interval.multiple? unit with
      | some digits => ⟨digits, place⟩
      | none => firstPlace significand exponent count (place - 1)

/-- A place above the leading digit of `significand * 2 ^ exponent`. -/
def topPlace (significand : Nat) (exponent : Int) : Int :=
  ((Nat.log2 significand : Int) + exponent + 1) * 1233 / 4096 + 1

/-- The coarsest decimal grid with a point in the interval gives the fewest digits. The number
itself lies on the grid of its own exponent, or on the grid of the integers. -/
def shortest (significand : Nat) (exponent : Int) : Numeral :=
  let top := topPlace significand exponent
  firstPlace significand exponent (top - min exponent 0).toNat top

end Lox.Decimal
