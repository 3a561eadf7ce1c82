/-
This file writes text between double quotes, as error messages show it.
-/

import Lox.Text.Combining
import Lox.Text.Printable

namespace Lox.Text

/-- The digits of a number in base sixteen, with small letters. -/
def hexDigits (n : Nat) : List Char := Nat.toDigits 16 n

/-- A character is shown as it is, or by a short escape, or by its code point. -/
def escape (c : Char) : List Char :=
  match c with
  | '\x00' => ['\\', '0']
  | '\t' => ['\\', 't']
  | '\n' => ['\\', 'n']
  | '\r' => ['\\', 'r']
  | '"' => ['\\', '"']
  | '\\' => ['\\', '\\']
  | c =>
      if isPrintable c && !isCombining c then [c]
      else ['\\', 'u', '\x7b'] ++ hexDigits c.toNat ++ ['\x7d']

/-- The text stands between double quotes, character by character. -/
def quoted (text : String) : String :=
  String.ofList ('"' :: text.toList.flatMap escape ++ ['"'])

end Lox.Text
