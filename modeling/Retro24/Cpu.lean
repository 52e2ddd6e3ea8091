/-
  File:      Retro24/Cpu.lean
  Subject:   The processor: one cycle, and runs of cycles.

  * `Cpu.fetch`: the opcode at IC, or the fault that the byte there encodes none.
  * `Cpu.tick`: the two watchdog bytes move, one up and one down; `Cpu.execute`: the effect of an
    opcode; `Cpu.perform` is both, counted as one cycle.
  * `Cpu.cycle`: a fetch, then the opcode performed. A fault changes nothing. `Cpu.clock` is the
    same with the processor left behind, and `Cpu.clocks` a number of them in a row.
  * `Cpu.run`: cycles until the processor halts, faults, or has done the number asked for.
  * `Cpu.reset`: registers as at power-on, watchdogs zero, all other memory as it was.

  The halt latch is not looked at by a cycle: whoever drives the processor asks `Cpu.halted`.
-/
import Retro24.Registers
import Retro24.Statement

namespace Retro24

/-- A processor with its memory. -/
structure Cpu (M : Type) where
  regs : Registers
  /-- Cycles done since the last reset. -/
  cycles : UInt64
  memory : M

/-- What stops the processor. -/
inductive CpuFault where
  /-- The byte at IC encodes no opcode. -/
  | unknownOpcode (byte : UInt8) (ic : UInt16)
  deriving DecidableEq, Repr

/-- The text of a fault. -/
def CpuFault.message : CpuFault → String
  | .unknownOpcode byte ic => "unknown opcode $" ++ Hex.byte byte ++ " at IC=$" ++ Hex.word ic

namespace Cpu

variable {M : Type} [Memory M]

open Memory (read write readWord writeWord)

/-! ## 1. Power -/

/-- A processor as power comes on. -/
def powerOn (memory : M) : Cpu M := ⟨.powerOn, 0, memory⟩

/-- Registers as at power-on, the counter and both watchdog bytes zero. -/
@[specialize] def reset (c : Cpu M) : Cpu M :=
  ⟨.powerOn, 0, write (write c.memory tickAddress 0) tockAddress 0⟩

/-- Whether the halt latch is set. -/
@[inline] def halted (c : Cpu M) : Bool := c.regs.halted

/-! ## 2. One cycle -/

/-- The opcode at IC. -/
@[inline] def fetch (c : Cpu M) : Except CpuFault Opcode :=
  let byte := read c.memory c.regs.ic
  match Opcode.ofByte? byte with
  | some op => .ok op
  | none => .error (.unknownOpcode byte c.regs.ic)

/-- Memory with the first watchdog byte counted up and the second counted down. -/
@[specialize] def moveWatchdogs (m : M) : M :=
  let m := write m tickAddress (read m tickAddress + 1)
  write m tockAddress (read m tockAddress - 1)

/-- The fetched opcode is noted and the watchdogs move. -/
@[inline] def tick (op : Opcode) (c : Cpu M) : Cpu M :=
  match c with
  | ⟨regs, cycles, memory⟩ => ⟨{ regs with opcode := op.byte }, cycles, moveWatchdogs memory⟩

/-- The byte that stands `n` places behind the opcode. -/
@[inline] def operand (c : Cpu M) (n : UInt16) : UInt8 := read c.memory (c.regs.ic + n)

/-- Execution goes on `n` bytes further. -/
@[inline] def advance (c : Cpu M) (n : UInt16) : Cpu M :=
  { c with regs := { c.regs with ic := c.regs.ic + n } }

/-- Execution goes on at AR when the condition holds, and otherwise `n` bytes further. -/
@[inline] def branch (c : Cpu M) (condition : Bool) (n : UInt16) : Cpu M :=
  if condition then { c with regs := { c.regs with ic := c.regs.ar } } else c.advance n

/-- The same processor with other registers. -/
@[inline] def withRegs (c : Cpu M) (f : Registers → Registers) : Cpu M :=
  { c with regs := f c.regs }

/-- The effect of an opcode. Operands are read where IC stands, and IC moves last. -/
@[specialize] def execute (op : Opcode) (c : Cpu M) : Cpu M :=
  match op with
  | .nul => c.advance 1
  | .mar => (c.withRegs ({ · with ar := Word.ofBytes (c.operand 1) (c.operand 2) })).advance 3
  | .sic =>
    { c with
      memory := writeWord c.memory c.regs.ar (Word.low c.regs.ic) (Word.high c.regs.ic) }.advance 1
  | .rar => (c.withRegs fun r => { r with ar := Word.ofBytes r.r1 r.r2 }).advance 1
  | .aar => (c.withRegs fun r => { r with ar := r.ar + r.r0.toUInt16 }).advance 1
  | .ir0 => (c.withRegs fun r => { r with r0 := if r.r0 = 0xFF then 0xFF else r.r0 + 1 }).advance 1
  | .a01 => (c.withRegs Registers.addWord).advance 1
  | .dr0 => (c.withRegs fun r => { r with r0 := if r.r0 = 0 then 0 else r.r0 - 1 }).advance 1
  | .s01 => (c.withRegs fun r => r.subtractWord r.r0).advance 1
  | .x12 => (c.withRegs fun r => { r with r1 := r.r2, r2 := r.r1 }).advance 1
  | .x01 => (c.withRegs fun r => { r with r0 := r.r1, r1 := r.r0 }).advance 1
  | .jmp => c.branch true 1
  | .sr0 => { c with memory := write c.memory c.regs.ar c.regs.r0 }.advance 1
  | .srw => { c with memory := writeWord c.memory c.regs.ar c.regs.r1 c.regs.r2 }.advance 1
  | .lr0 => (c.withRegs ({ · with r0 := read c.memory c.regs.ar })).advance 1
  | .lrw =>
    (c.withRegs
      ({ · with r1 := read c.memory c.regs.ar, r2 := read c.memory (c.regs.ar + 1) })).advance 1
  | .taw => (c.withRegs fun r => { r with r1 := Word.low r.ar, r2 := Word.high r.ar }).advance 1
  | .mr0 => (c.withRegs ({ · with r0 := c.operand 1 })).advance 2
  | .mrw => (c.withRegs ({ · with r1 := c.operand 1, r2 := c.operand 2 })).advance 3
  | .jz0 => c.branch (c.regs.r0 == 0) 1
  | .jgw => c.branch (c.regs.r2 < c.regs.r1) 1
  | .jew => c.branch (c.regs.r1 == c.regs.r2) 1
  | .or0 => (c.withRegs fun r => { r with r0 := r.r0 ||| c.operand 1 }).advance 2
  | .an0 => (c.withRegs fun r => { r with r0 := r.r0 &&& c.operand 1 }).advance 2
  | .je0 => c.branch (c.regs.r0 == c.operand 1) 2
  | .c01 => (c.withRegs fun r => { r with r1 := r.r0 }).advance 1
  | .c02 => (c.withRegs fun r => { r with r2 := r.r0 }).advance 1
  | .irw => (c.withRegs Registers.incrementWord).advance 1
  | .drw => (c.withRegs fun r => r.subtractWord 1).advance 1
  | .x03 => (c.withRegs fun r => { r with r0 := r.r3, r3 := r.r0 }).advance 1
  | .c03 => (c.withRegs fun r => { r with r3 := r.r0 }).advance 1
  | .c30 => (c.withRegs fun r => { r with r0 := r.r3 }).advance 1
  | .pl0 => (c.withRegs fun r => { r with r0 := r.r0 <<< 1 }).advance 1
  | .pr0 => (c.withRegs fun r => { r with r0 := r.r0 >>> 1 }).advance 1
  | .hlt => (c.withRegs fun r => { r with halted := true }).advance 1

/-- The effect of an opcode, counted as one cycle. -/
@[inline] def complete (op : Opcode) (c : Cpu M) : Cpu M :=
  match c.execute op with
  | ⟨regs, cycles, memory⟩ => ⟨regs, cycles + 1, memory⟩

/-- One cycle of a fetched opcode. -/
@[specialize] def perform (op : Opcode) (c : Cpu M) : Cpu M := (c.tick op).complete op

/-- One cycle: the opcode that ran and the processor behind it, or a fault. -/
@[inline] def cycle (c : Cpu M) : Except CpuFault (Opcode × Cpu M) :=
  match c.fetch with
  | .ok op => .ok (op, c.perform op)
  | .error fault => .error fault

/-- One cycle: what came of it, and the processor as it was left. A fault leaves it as it was. -/
@[inline] def clock (c : Cpu M) : Except CpuFault Opcode × Cpu M :=
  match c.cycle with
  | .ok (op, c') => (.ok op, c')
  | .error fault => (.error fault, c)

/-! ## 3. Runs -/

/-- A number of cycles in a row, whether the processor is halted or not: what came of each, and the
    processor as it was left. -/
def clocks (c : Cpu M) : Nat → List (Except CpuFault Opcode) × Cpu M
  | 0 => ([], c)
  | n + 1 =>
    let (result, c) := c.clock
    let (results, c) := c.clocks n
    (result :: results, c)

/-- Up to `budget` cycles, ending early at a halt or a fault, on top of `done` cycles. The answer
    holds the number of cycles done or the fault, and the processor as it was left. -/
@[specialize] def runFrom (done : Nat) (c : Cpu M) : Nat → Except CpuFault Nat × Cpu M
  | 0 => (.ok done, c)
  | budget + 1 =>
    if c.halted then (.ok done, c)
    else
      match c.fetch with
      | .ok op => runFrom (done + 1) (c.perform op) budget
      | .error fault => (.error fault, c)

/-- Up to `budget` cycles, ending early at a halt or a fault. -/
@[inline] def run (c : Cpu M) (budget : Nat) : Except CpuFault Nat × Cpu M := runFrom 0 c budget

end Cpu

end Retro24
