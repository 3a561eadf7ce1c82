/-
This file reads the numbers of a program and writes them.
-/

import Lox.Decimal.Shortest

namespace Lox.Number

open Decimal

/-- The value of a run of decimal digits. -/
def digitsValue (digits : List Char) : Nat :=
  digits.foldl (fun value digit => 10 * value + (digit.toNat - '0'.toNat)) 0

/-- A number is the double nearest to its digits, some of which may stand behind the point. -/
def ofDigits (whole fraction : List Char) : Float :=
  nearest (digitsValue (whole ++ fraction)) (Nat.pow 10 fraction.length)

/-- A literal has a whole part and, behind a point, maybe a fraction. -/
def ofLiteral (text : List Char) : Float :=
  ofDigits (text.takeWhile (· ≠ '.')) ((text.dropWhile (· ≠ '.')).drop 1)

/-- A decimal number is written without an exponent, and with a point only before a fraction. -/
def positional (value : Numeral) : List Char :=
  let digits := Nat.toDigits 10 value.digits
  let places := (-value.exponent).toNat
  if places = 0 then digits ++ List.replicate value.exponent.toNat '0'
  else if places < digits.length then
    digits.take (digits.length - places) ++ '.' :: digits.drop (digits.length - places)
  else '0' :: '.' :: List.replicate (places - digits.length) '0' ++ digits

/-- The sign comes first, also for zero, and a value that is no number has none. -/
def text (x : Float) : String :=
  match Binary.ofFloat x with
  | .notANumber => "NaN"
  | .infinite negative => if negative then "-inf" else "inf"
  | .finite negative significand exponent =>
      let magnitude :=
        if significand = 0 then ['0'] else positional (shortest significand exponent)
      String.ofList (if negative then '-' :: magnitude else magnitude)

end Lox.Number
