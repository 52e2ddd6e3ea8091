/-
  File:      Retro24/Hex.lean
  Subject:   Upper-case hexadecimal text, written and read back.

  * `digit` / `value?`: one digit and its value; the two undo each other (`value?_digit`).
  * `byte`, `word`: exactly two and exactly four digits.
  * `padded`: as many digits as the number needs, at least as many as asked for.
  * `number?`: reads any number of upper-case digits.
-/

namespace Retro24.Hex

/-! ## 1. One digit -/

/-- The digit of a value below sixteen: `0` to `9`, then `A` to `F`. -/
def digit (n : Nat) : Char :=
  if n < 10 then Char.ofNat (48 + n) else Char.ofNat (55 + n)

/-- The value of an upper-case digit, and nothing for any other character. -/
def value? (c : Char) : Option Nat :=
  if '0' ≤ c ∧ c ≤ '9' then some (c.toNat - 48)
  else if 'A' ≤ c ∧ c ≤ 'F' then some (c.toNat - 55)
  else none

/-- Reading a digit gives back its value. -/
theorem value?_digit {n : Nat} (h : n < 16) : value? (digit n) = some n := by
  have : ∀ k : Fin 16, value? (digit k.val) = some k.val := by decide
  exact this ⟨n, h⟩

/-! ## 2. Numbers -/

/-- The digits of a number, the most significant first, without leading zeros. -/
def digits (n : Nat) : List Char :=
  if n < 16 then [digit n] else digits (n / 16) ++ [digit (n % 16)]
termination_by n

/-- The digits of a number, filled up with leading zeros to at least `width` of them. -/
def padded (width n : Nat) : String :=
  let ds := digits n
  String.ofList (List.replicate (width - ds.length) '0' ++ ds)

/-- The two digits of a byte. -/
def byteDigits (b : UInt8) : List Char := [digit (b.toNat / 16), digit (b.toNat % 16)]

/-- The two digits of a byte, as text. -/
def byte (b : UInt8) : String := String.ofList (byteDigits b)

/-- The four digits of a word. -/
def wordDigits (w : UInt16) : List Char :=
  [digit (w.toNat / 4096), digit (w.toNat / 256 % 16), digit (w.toNat / 16 % 16),
    digit (w.toNat % 16)]

/-- The four digits of a word, as text. -/
def word (w : UInt16) : String := String.ofList (wordDigits w)

/-! ## 3. Reading -/

/-- The number that a run of digits stands for, `acc` being the value of the digits before it. -/
def valueFrom? (acc : Nat) : List Char → Option Nat
  | [] => some acc
  | c :: cs => (value? c).bind fun d => valueFrom? (16 * acc + d) cs

/-- The number that a non-empty run of digits stands for. -/
def number? : List Char → Option Nat
  | [] => none
  | cs => valueFrom? 0 cs

end Retro24.Hex
