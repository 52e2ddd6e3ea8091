/-
  File:      Retro24/Json/Writing.lean
  Subject:   Values, written as text.

  * `escapeChar`, `writeString`: strings between quotes; only quotes, backslashes and controls are
    escaped.
  * `Value.compact`: a value without spaces.
  * `Value.pretty`: a value with every element and entry on a line of its own, two columns further
    in than its container; empty containers stay on their line.
-/
import Retro24.Json.Issue

namespace Retro24.Json

/-! ## 1. Strings and numbers -/

/-- How a character is written between quotes. -/
def escapeChar (c : Char) : List Char :=
  if c = '"' then ['\\', '"']
  else if c = '\\' then ['\\', '\\']
  else if c = '\n' then ['\\', 'n']
  else if c = '\r' then ['\\', 'r']
  else if c = '\t' then ['\\', 't']
  else if c = '\x08' then ['\\', 'b']
  else if c = '\x0C' then ['\\', 'f']
  else if c.toNat < 0x20 then
    ['\\', 'u', '0', '0', Nat.digitChar (c.toNat / 16), Nat.digitChar (c.toNat % 16)]
  else [c]

/-- A string between quotes. -/
def writeString (s : String) : List Char := '"' :: s.toList.flatMap escapeChar ++ ['"']

/-- A number. -/
def writeNumber : Number → List Char
  | .integer (.ofNat n) => Nat.toDigits 10 n
  | .integer (.negSucc n) => '-' :: Nat.toDigits 10 (n + 1)
  | .real x => (layout.text x).toList

/-! ## 2. Values -/

mutual

/-- A value without spaces. -/
def writeCompact : Value → List Char
  | .null => ['n', 'u', 'l', 'l']
  | .bool true => ['t', 'r', 'u', 'e']
  | .bool false => ['f', 'a', 'l', 's', 'e']
  | .number n => writeNumber n
  | .string s => writeString s
  | .array [] => ['[', ']']
  | .array (x :: xs) => '[' :: (writeCompact x ++ writeCompactItems xs)
  | .object [] => ['{', '}']
  | .object ((k, x) :: xs) =>
    '{' :: (writeString k ++ ':' :: (writeCompact x ++ writeCompactEntries xs))

/-- The elements of a list behind its first, and the closing bracket. -/
def writeCompactItems : List Value → List Char
  | [] => [']']
  | x :: xs => ',' :: (writeCompact x ++ writeCompactItems xs)

/-- The entries of an object behind its first, and the closing bracket. -/
def writeCompactEntries : List (String × Value) → List Char
  | [] => ['}']
  | (k, x) :: xs => ',' :: (writeString k ++ ':' :: (writeCompact x ++ writeCompactEntries xs))

end

/-- A new line and the indentation of a depth. -/
def newLine (depth : Nat) : List Char := '\n' :: List.replicate (2 * depth) ' '

mutual

/-- A value over several lines, inside `depth` containers. -/
def writePretty (depth : Nat) : Value → List Char
  | .null => ['n', 'u', 'l', 'l']
  | .bool true => ['t', 'r', 'u', 'e']
  | .bool false => ['f', 'a', 'l', 's', 'e']
  | .number n => writeNumber n
  | .string s => writeString s
  | .array [] => ['[', ']']
  | .array (x :: xs) =>
    '[' :: (newLine (depth + 1) ++ (writePretty (depth + 1) x ++ writePrettyItems depth xs))
  | .object [] => ['{', '}']
  | .object ((k, x) :: xs) =>
    '{' :: (newLine (depth + 1) ++ (writeString k ++ ':' :: ' ' ::
      (writePretty (depth + 1) x ++ writePrettyEntries depth xs)))

/-- The elements of a list behind its first, and the closing bracket. -/
def writePrettyItems (depth : Nat) : List Value → List Char
  | [] => newLine depth ++ [']']
  | x :: xs =>
    ',' :: (newLine (depth + 1) ++ (writePretty (depth + 1) x ++ writePrettyItems depth xs))

/-- The entries of an object behind its first, and the closing bracket. -/
def writePrettyEntries (depth : Nat) : List (String × Value) → List Char
  | [] => newLine depth ++ ['}']
  | (k, x) :: xs =>
    ',' :: (newLine (depth + 1) ++ (writeString k ++ ':' :: ' ' ::
      (writePretty (depth + 1) x ++ writePrettyEntries depth xs)))

end

namespace Value

/-- A value as text without spaces. -/
def compact (v : Value) : String := String.ofList (writeCompact v)

/-- A value as text over several lines. -/
def pretty (v : Value) : String := String.ofList (writePretty 0 v)

end Value

end Retro24.Json
