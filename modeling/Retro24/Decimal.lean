/-
  File:      Retro24/Decimal.lean
  Subject:   Binary fractions and their shortest decimal text.

  * `Binary`: a positive number m * 2^q as a double holds it; `Binary.ofFloat` takes a double apart.
  * `Binary.shortest`: the decimal d * 10^k on the coarsest grid of powers of ten that still rounds
    to the number, of two such neighbours the nearer one, and the even one at a tie.
  * `Layout`: which decimal exponents are written with a point alone; `Layout.text` writes a double.
-/

namespace Retro24

/-! ## 1. Doubles taken apart -/

/-- The number `mantissa * 2 ^ exponent`, and whether the doubles below it lie twice as close as
    those above. -/
structure Binary where
  mantissa : Nat
  exponent : Int
  narrowBelow : Bool

namespace Binary

/-- The magnitude of a double. -/
def ofFloat (x : Float) : Binary :=
  let bits := x.toBits.toNat
  let fraction : Nat := bits % 0x10000000000000
  let power : Nat := bits / 0x10000000000000 % 0x800
  if power = 0 then ⟨fraction, -1074, false⟩
  else ⟨0x10000000000000 + fraction, (power : Int) - 1075, fraction == 0 && power != 1⟩

/-! ## 2. The shortest decimal -/

/-- Numerator and denominator of `n * 2 ^ exponent / 4`. -/
def quarter (b : Binary) (n : Nat) : Nat × Nat :=
  if 2 ≤ b.exponent then (n * Nat.pow 2 (b.exponent - 2).toNat, 1)
  else (n, Nat.pow 2 (2 - b.exponent).toNat)

/-- Numerator and denominator of a number measured in units of `10 ^ k`. -/
def inUnits (k : Int) (x : Nat × Nat) : Nat × Nat :=
  if 0 ≤ k then (x.1, x.2 * Nat.pow 10 k.toNat) else (x.1 * Nat.pow 10 (-k).toNat, x.2)

/-- Whether the number `d * 10 ^ k` rounds to the number. The two ends of the interval belong to it
    when the mantissa is even. -/
def rounds (b : Binary) (k : Int) (d : Nat) : Bool :=
  let low := inUnits k (b.quarter (4 * b.mantissa - if b.narrowBelow then 1 else 2))
  let high := inUnits k (b.quarter (4 * b.mantissa + 2))
  if b.mantissa % 2 = 0 then low.1 ≤ d * low.2 && d * high.2 ≤ high.1
  else low.1 < d * low.2 && d * high.2 < high.1

/-- The point of the grid of `10 ^ k` that rounds to the number, if there is one. -/
def onGrid? (b : Binary) (k : Int) : Option Nat :=
  let value := inUnits k (b.quarter (4 * b.mantissa))
  let below := value.1 / value.2
  let above := below + 1
  match b.rounds k below, b.rounds k above with
  | true, false => some below
  | false, true => some above
  | false, false => none
  | true, true =>
    let left := value.1 - below * value.2
    let right := above * value.2 - value.1
    if left < right then some below
    else if right < left then some above
    else some (if below % 2 = 0 then below else above)

/-- The first grid with a point that rounds to the number, from `10 ^ k` downwards. -/
def shortestFrom (b : Binary) (k : Int) : Nat → Nat × Int
  | 0 => (0, 0)
  | fuel + 1 =>
    match b.onGrid? k with
    | some d => (d, k)
    | none => b.shortestFrom (k - 1) fuel

/-- The shortest decimal that rounds to the number: its digits and their power of ten. No double
    reaches `10 ^ 309`, and every one is a multiple of `10 ^ -1074`. -/
def shortest (b : Binary) : Nat × Int := b.shortestFrom 309 1400

end Binary

/-! ## 3. Text -/

/-- How a decimal is laid out. -/
structure Layout where
  /-- The smallest decimal exponent written with a point alone. -/
  lowest : Int
  /-- The largest decimal exponent written with a point alone. -/
  highest : Int

namespace Layout

/-- The digits of a number below one behind the point, or with the point among or behind them. -/
def positional (digits : List Char) (exponent : Int) : List Char :=
  if exponent < 0 then
    ['0', '.'] ++ List.replicate (-exponent - 1).toNat '0' ++ digits
  else
    let whole := exponent.toNat + 1
    if digits.length ≤ whole then
      digits ++ List.replicate (whole - digits.length) '0' ++ ['.', '0']
    else digits.take whole ++ '.' :: digits.drop whole

/-- The digits with the point behind the first one, and the exponent with its sign. -/
def scientific (digits : List Char) (exponent : Int) : List Char :=
  let mantissa :=
    match digits with
    | d :: r :: rest => d :: '.' :: r :: rest
    | _ => digits
  mantissa ++ (if exponent < 0 then ['e', '-'] else ['e', '+']) ++ Nat.toDigits 10 exponent.natAbs

/-- The text of a finite double. -/
def text (l : Layout) (x : Float) : String :=
  let bits := x.toBits
  let sign := if bits >>> 63 = 1 then ['-'] else []
  let magnitude :=
    if bits <<< 1 = 0 then ['0', '.', '0']
    else
      let (d, k) := (Binary.ofFloat x).shortest
      let digits := Nat.toDigits 10 d
      let exponent := k + (digits.length : Int) - 1
      if l.lowest ≤ exponent ∧ exponent ≤ l.highest then positional digits exponent
      else scientific digits exponent
  String.ofList (sign ++ magnitude)

end Layout

end Retro24
