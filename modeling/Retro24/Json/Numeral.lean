/-
  File:      Retro24/Json/Numeral.lean
  Subject:   Numbers, read from the front of a text.

  * `scaled?`: the double nearest to a significand times a power of ten, as far as one
    multiplication or division by a power up to 10^308 gives it; nothing when it is infinite.
  * `readNumber`: a number; significands are kept exactly up to 64 bits, and digits beyond that only
    move the exponent.
  * `skipNumber`: the same grammar without a value, so that no number is too large.
-/
import Retro24.Json.Issue

namespace Retro24.Json

/-- What a reader gives back: a result and the rest of the text. -/
abbrev Read (α : Type) := Except Failure (α × List Char)

/-- A failure at the start of `rest`, or some bytes behind it. -/
def failure (issue : Issue) (rest : List Char) (ahead : Nat) : Failure := ⟨issue, rest, ahead⟩

/-- The value of a decimal digit. -/
def digit? (c : Char) : Option Nat := if c.isDigit then some (c.toNat - 48) else none

/-- The rest of a text behind a run of digits. -/
def skipDigits (cs : List Char) : List Char := cs.dropWhile Char.isDigit

/-! ## 1. Doubles from decimals -/

/-- The double nearest to a power of ten. -/
def powerOfTen (k : Nat) : Float := Float.ofScientific 1 false k

/-- `x * 10 ^ exponent`, or nothing when it is infinite. Exponents below the smallest power take
    steps of 10^308, of which the third leaves nothing but zero. -/
def scaleBy? (x : Float) (exponent : Int) : Nat → Option Float
  | 0 => some 0.0
  | steps + 1 =>
    if exponent.natAbs ≤ 308 then
      if 0 ≤ exponent then
        let y := x * powerOfTen exponent.natAbs
        if y.isInf then none else some y
      else some (x / powerOfTen exponent.natAbs)
    else if x == 0.0 then some x
    else if 0 ≤ exponent then none
    else scaleBy? (x / powerOfTen 308) (exponent + 308) steps

/-- The double for `significand * 10 ^ exponent` with a sign, or nothing when it is infinite. -/
def scaled? (negative : Bool) (significand : Nat) (exponent : Int) : Option Float :=
  (scaleBy? significand.toUInt64.toFloat exponent 4).map fun x => if negative then -x else x

/-- The number of a significand and an exponent, read up to `rest`. -/
def finish (negative : Bool) (significand : Nat) (exponent : Int) (rest : List Char) :
    Read Number :=
  match scaled? negative significand exponent with
  | some x => .ok (.real x, rest)
  | none => .error (failure .numberOutOfRange rest 0)

/-! ## 2. The parts of a number -/

/-- The digits of an exponent. One beyond 32 bits makes zero of the number or is out of range. -/
def readExponentDigits (negative : Bool) (significand : Nat) (start : Int) (down : Bool)
    (exponent : Nat) : List Char → Read Number
  | [] => finish negative significand (if down then start - exponent else start + exponent) []
  | c :: cs =>
    match digit? c with
    | none =>
      finish negative significand (if down then start - exponent else start + exponent) (c :: cs)
    | some d =>
      let exponent' := 10 * exponent + d
      if 0x80000000 ≤ exponent' then
        if significand ≠ 0 ∧ down = false then .error (failure .numberOutOfRange cs 0)
        else .ok (.real (if negative then -0.0 else 0.0), skipDigits cs)
      else readExponentDigits negative significand start down exponent' cs

/-- An exponent, read behind its letter. -/
def readExponent (negative : Bool) (significand : Nat) (start : Int) (cs : List Char) :
    Read Number :=
  let (down, cs) :=
    match cs with
    | '+' :: rest => (false, rest)
    | '-' :: rest => (true, rest)
    | _ => (false, cs)
  match cs with
  | [] => .error (failure .endInValue [] 0)
  | c :: rest =>
    match digit? c with
    | none => .error (failure .invalidNumber cs 1)
    | some d => readExponentDigits negative significand start down d rest

/-- What follows the last digit of a fraction or of a long integer. -/
def readTail (negative : Bool) (significand : Nat) (exponent : Int) (cs : List Char) :
    Read Number :=
  match cs with
  | 'e' :: rest => readExponent negative significand exponent rest
  | 'E' :: rest => readExponent negative significand exponent rest
  | _ => finish negative significand exponent cs

/-- The digits of a fraction, `any` telling whether there has been one. Digits that no longer fit
    are passed over. -/
def readFractionDigits (negative : Bool) (significand : Nat) (exponent : Int) (any : Bool)
    (cs : List Char) : Read Number :=
  match cs with
  | [] =>
    if any then readTail negative significand exponent [] else .error (failure .endInValue [] 0)
  | c :: rest =>
    match digit? c with
    | some d =>
      let significand' := 10 * significand + d
      if significand' < 0x10000000000000000 then
        readFractionDigits negative significand' (exponent - 1) true rest
      else readTail negative significand exponent (skipDigits rest)
    | none =>
      if any then readTail negative significand exponent (c :: rest)
      else .error (failure .invalidNumber (c :: rest) 1)

/-- The digits of an integer of more than 64 bits: each one left over moves the exponent. -/
def readLongInteger (negative : Bool) (significand : Nat) (exponent : Int) :
    List Char → Read Number
  | [] => finish negative significand exponent []
  | c :: cs =>
    if c.isDigit then readLongInteger negative significand (exponent + 1) cs
    else if c = '.' then readFractionDigits negative significand exponent false cs
    else readTail negative significand exponent (c :: cs)

/-- What follows the digits of an integer of at most 64 bits. Below -2^63, and for a negative zero,
    the number is a double. -/
def readAfterInteger (negative : Bool) (significand : Nat) (cs : List Char) : Read Number :=
  match cs with
  | '.' :: rest => readFractionDigits negative significand 0 false rest
  | 'e' :: rest => readExponent negative significand 0 rest
  | 'E' :: rest => readExponent negative significand 0 rest
  | _ =>
    if negative then
      if significand = 0 ∨ 0x8000000000000000 < significand then
        .ok (.real (-significand.toUInt64.toFloat), cs)
      else .ok (.integer (-(significand : Int)), cs)
    else .ok (.integer significand, cs)

/-- The digits of an integer behind its first. -/
def readIntegerDigits (negative : Bool) (significand : Nat) (cs : List Char) : Read Number :=
  match cs with
  | [] => readAfterInteger negative significand []
  | c :: rest =>
    match digit? c with
    | some d =>
      let significand' := 10 * significand + d
      if significand' < 0x10000000000000000 then readIntegerDigits negative significand' rest
      else readLongInteger negative significand 0 (c :: rest)
    | none => readAfterInteger negative significand (c :: rest)

/-! ## 3. Numbers -/

/-- A number, read behind its sign. A leading zero stands alone. -/
def readNumber (negative : Bool) (cs : List Char) : Read Number :=
  match cs with
  | [] => .error (failure .endInValue [] 0)
  | '0' :: rest =>
    match rest with
    | c :: _ =>
      if c.isDigit then .error (failure .invalidNumber rest 1) else readAfterInteger negative 0 rest
    | [] => readAfterInteger negative 0 rest
  | c :: rest =>
    match digit? c with
    | some d => readIntegerDigits negative d rest
    | none => .error (failure .invalidNumber cs 1)

/-- The rest of a text behind an exponent whose letter was read. -/
def skipExponent (cs : List Char) : Except Failure (List Char) :=
  let cs :=
    match cs with
    | '+' :: rest => rest
    | '-' :: rest => rest
    | _ => cs
  match cs with
  | c :: rest =>
    if c.isDigit then .ok (skipDigits rest) else .error (failure .invalidNumber cs 1)
  | [] => .error (failure .invalidNumber [] 0)

/-- The rest of a text behind an exponent, if one follows. -/
def skipTail (cs : List Char) : Except Failure (List Char) :=
  match cs with
  | 'e' :: rest => skipExponent rest
  | 'E' :: rest => skipExponent rest
  | _ => .ok cs

/-- The rest of a text behind the fraction and the exponent, if they follow. -/
def skipAfterInteger (cs : List Char) : Except Failure (List Char) :=
  match cs with
  | '.' :: rest =>
    match rest with
    | c :: rest' =>
      if c.isDigit then skipTail (skipDigits rest') else .error (failure .invalidNumber rest 1)
    | [] => .error (failure .invalidNumber [] 0)
  | _ => skipTail cs

/-- The rest of a text behind a number whose sign was read. -/
def skipNumber (cs : List Char) : Except Failure (List Char) :=
  match cs with
  | '0' :: rest =>
    match rest with
    | c :: _ =>
      if c.isDigit then .error (failure .invalidNumber rest 1) else skipAfterInteger rest
    | [] => skipAfterInteger rest
  | c :: rest =>
    if c.isDigit then skipAfterInteger (skipDigits rest) else .error (failure .invalidNumber cs 1)
  | [] => .error (failure .invalidNumber [] 0)

end Retro24.Json
