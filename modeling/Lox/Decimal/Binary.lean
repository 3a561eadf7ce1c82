/-
This file takes a double apart into an integer and a power of two, and puts the double that is
nearest to a fraction together.
-/

namespace Lox.Decimal

/-- A double is no number, an infinity, or `significand * 2 ^ exponent` with a sign. -/
inductive Binary where
  | notANumber
  | infinite (negative : Bool)
  | finite (negative : Bool) (significand : Nat) (exponent : Int)
  deriving DecidableEq, Repr

/-- The number of bits behind the leading bit of a significand. -/
def fractionBits : Nat := 52

/-- The exponent of the smallest positive double. -/
def minExponent : Int := -1074

/-- The exponent field of the infinities and of the values that are no number. -/
def maxField : Nat := 2047

/-- The fields of the 64 bits give the value. -/
def Binary.ofBits (bits : UInt64) : Binary :=
  let word := bits.toNat
  let negative := word / Nat.pow 2 63 = 1
  let field := word / Nat.pow 2 fractionBits % Nat.pow 2 11
  let fraction := word % Nat.pow 2 fractionBits
  if field = maxField then
    if fraction = 0 then .infinite negative else .notANumber
  else if field = 0 then .finite negative fraction minExponent
  else .finite negative (Nat.pow 2 fractionBits + fraction) (minExponent + (field - 1 : Nat))

def Binary.ofFloat (x : Float) : Binary := ofBits x.toBits

/-- A quotient is rounded to the nearest integer, and a half to the even neighbour. -/
def divideToEven (numerator denominator : Nat) : Nat :=
  let floor := numerator / denominator
  let twice := 2 * (numerator % denominator)
  if twice < denominator then floor
  else if denominator < twice then floor + 1
  else floor + floor % 2

/-- The fraction divided by a power of two. -/
def scaled (numerator denominator : Nat) (exponent : Int) : Nat × Nat :=
  (numerator * Nat.pow 2 (-exponent).toNat, denominator * Nat.pow 2 exponent.toNat)

/-- The exponent whose significands have the most digits below the limit. -/
def exponentOf (numerator denominator : Nat) : Int :=
  let guess := max minExponent
    ((Nat.log2 numerator : Int) - (Nat.log2 denominator : Int) - (fractionBits : Int))
  let (top, bottom) := scaled numerator denominator guess
  if top / bottom < Nat.pow 2 fractionBits then max minExponent (guess - 1) else guess

/-- The bits of the nonnegative double that is nearest to a fraction. A carry out of the
significand moves into the exponent field by itself. -/
def nearestBits (numerator denominator : Nat) : Nat :=
  let exponent := exponentOf numerator denominator
  let (top, bottom) := scaled numerator denominator exponent
  let significand := divideToEven top bottom
  let word :=
    if significand < Nat.pow 2 fractionBits then significand
    else ((exponent - minExponent).toNat + 1) * Nat.pow 2 fractionBits
      + (significand - Nat.pow 2 fractionBits)
  min word (maxField * Nat.pow 2 fractionBits)

/-- The nonnegative double that is nearest to a fraction, with an even significand on a tie. -/
def nearest (numerator denominator : Nat) : Float :=
  Float.ofBits (UInt64.ofNat (nearestBits numerator denominator))

end Lox.Decimal
