/-
  File:      Retro24/Text/Quoted.lean
  Subject:   A text between quotes, with everything visible.

  * `quoteChar`: a quote and a backslash get a backslash before them, the common controls have an
    escape of one letter, and any other hidden character is written as its code point in
    hexadecimal.
  * `quoted`: the text in quotes.
-/
import Retro24.Text.Hidden

namespace Retro24.Text

/-- The digits of a number in hexadecimal, with small letters. -/
def hexSmall (n : Nat) : List Char := Nat.toDigits 16 n

/-- How a character is shown between quotes. -/
def quoteChar (c : Char) : List Char :=
  match c with
  | '\x00' => ['\\', '0']
  | '\t' => ['\\', 't']
  | '\n' => ['\\', 'n']
  | '\r' => ['\\', 'r']
  | '"' => ['\\', '"']
  | '\\' => ['\\', '\\']
  | c => if isHidden c then ['\\', 'u', '\x7b'] ++ hexSmall c.toNat ++ ['\x7d'] else [c]

/-- A text in quotes. -/
def quoted (s : String) : String := String.ofList ('"' :: s.toList.flatMap quoteChar ++ ['"'])

end Retro24.Text
