/-
  File:      Retro24/Registers.lean
  Subject:   The register file and the arithmetic of the word R2:R1.

  * `Registers`: AR and IC of sixteen bits, R0 to R3 of eight, the halt latch and the byte of the
    last instruction fetched; `Registers.powerOn` starts at $0100.
  * `addWord`: R2:R1 plus R0, held at $FFFF.
  * `subtractWord`: R1 minus an amount; a negative difference leaves its magnitude in R1 and takes
    one from R2, and both become zero when R2 is already zero.
  * `incrementWord`: R1 counts up to $FF first, then R2 does.
  * `Registers.line`: the registers as one line of text.
-/
import Retro24.Hex

namespace Retro24

/-- The register file. -/
structure Registers where
  /-- The address register. -/
  ar : UInt16
  /-- The instruction counter. -/
  ic : UInt16
  r0 : UInt8
  r1 : UInt8
  r2 : UInt8
  r3 : UInt8
  /-- The halt latch. -/
  halted : Bool
  /-- The byte of the last instruction fetched. -/
  opcode : UInt8
  deriving DecidableEq, Inhabited

/-- The byte counted up by every cycle. -/
def tickAddress : UInt16 := 0x0010

/-- The byte counted down by every cycle. -/
def tockAddress : UInt16 := 0x0011

/-- Where execution starts: the first byte of RAM. -/
def startAddress : UInt16 := 0x0100

namespace Registers

/-- The registers when power comes on. -/
def powerOn : Registers :=
  { ar := 0, ic := startAddress, r0 := 0, r1 := 0, r2 := 0, r3 := 0, halted := false, opcode := 0 }

/-- R0 added to the word R2:R1. A carry out of R1 raises R2, and a carry out of R2 holds both
    at $FF. -/
def addWord (r : Registers) : Registers :=
  let sum := r.r1 + r.r0
  if sum < r.r1 then
    if r.r2 = 0xFF then { r with r1 := 0xFF, r2 := 0xFF } else { r with r1 := sum, r2 := r.r2 + 1 }
  else { r with r1 := sum }

/-- An amount taken from R1. When it is larger than R1, the difference without its sign stays in
    R1 and R2 gives one; both become zero when R2 has none to give. -/
def subtractWord (r : Registers) (amount : UInt8) : Registers :=
  if r.r1 < amount then
    if r.r2 = 0 then { r with r1 := 0, r2 := 0 } else { r with r1 := amount - r.r1, r2 := r.r2 - 1 }
  else { r with r1 := r.r1 - amount }

/-- One added to R1, or to R2 once R1 stands at $FF; neither goes beyond $FF. -/
def incrementWord (r : Registers) : Registers :=
  if r.r1 = 0xFF then { r with r2 := if r.r2 = 0xFF then 0xFF else r.r2 + 1 }
  else { r with r1 := r.r1 + 1 }

/-- The address and data registers as a line of text. -/
def dataLine (r : Registers) : String :=
  "AR=" ++ Hex.word r.ar ++ " R0=" ++ Hex.byte r.r0 ++ " R1=" ++ Hex.byte r.r1 ++
    " R2=" ++ Hex.byte r.r2 ++ " R3=" ++ Hex.byte r.r3

/-- The registers without the latch and the last instruction, as a line of text. -/
def line (r : Registers) : String :=
  "AR=" ++ Hex.word r.ar ++ " IC=" ++ Hex.word r.ic ++ " R0=" ++ Hex.byte r.r0 ++
    " R1=" ++ Hex.byte r.r1 ++ " R2=" ++ Hex.byte r.r2 ++ " R3=" ++ Hex.byte r.r3

end Registers

end Retro24
