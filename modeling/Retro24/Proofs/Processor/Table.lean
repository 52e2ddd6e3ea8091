/-
  File:      Retro24/Proofs/Processor/Table.lean
  Subject:   The instruction table, in unbounded integers.

  * `Sheet`: a state of the processor written down in numbers; memory is a function of the address.
  * `Sheet.goOn`, `Sheet.jump`, `Sheet.store`, `Sheet.operand`, `Sheet.data`: what the effects are
    made of. Every address is taken modulo 2^16.
  * `Sheet.tick`: the watchdog bytes move, modulo 2^8.
  * `row`: the line of the table for an opcode: its code, mnemonic, length and effect.
  * `Cpu.sheet`: a processor read as a sheet. Registers, counter and every byte of memory are on
    it (`sheet_inj`), so equal sheets are equal processors over equal memories.
-/
import Retro24.Cpu

namespace Retro24

/-! ## 1. Sheets -/

/-- A state of the processor in numbers. -/
@[ext]
structure Sheet where
  ar : Nat
  ic : Nat
  r0 : Nat
  r1 : Nat
  r2 : Nat
  r3 : Nat
  halted : Bool
  opcode : Nat
  cycles : Nat
  mem : Nat → Nat

namespace Sheet

/-- Execution goes on `n` bytes further. -/
def goOn (n : Nat) (s : Sheet) : Sheet := { s with ic := (s.ic + n) % 0x10000 }

/-- Execution goes on at AR. -/
def jump (s : Sheet) : Sheet := { s with ic := s.ar }

/-- A number put at an address. -/
def store (a v : Nat) (s : Sheet) : Sheet :=
  { s with mem := fun b => if b = a then v else s.mem b }

/-- The byte `n` places behind the opcode. -/
def operand (s : Sheet) (n : Nat) : Nat := s.mem ((s.ic + n) % 0x10000)

/-- The byte `n` places behind the address in AR. -/
def data (s : Sheet) (n : Nat) : Nat := s.mem ((s.ar + n) % 0x10000)

/-- Two bytes put at the address in AR and behind it. -/
def storePair (low high : Nat) (s : Sheet) : Sheet :=
  (s.store s.ar low).store ((s.ar + 1) % 0x10000) high

/-- The byte at $10 counted up and the byte at $11 counted down. -/
def tick (s : Sheet) : Sheet :=
  (s.store 0x10 ((s.mem 0x10 + 1) % 0x100)).store 0x11 (((s.mem 0x11 : Int) - 1) % 0x100).toNat

/-- R0 added to R1. A sum above $FF keeps its low byte and adds one to R2, and both are $FF when
    R2 overflows. -/
def add (s : Sheet) : Sheet :=
  let x := s.r1 + s.r0
  if x > 0xFF then
    if s.r2 + 1 > 0xFF then { s with r1 := 0xFF, r2 := 0xFF }
    else { s with r1 := x % 0x100, r2 := s.r2 + 1 }
  else { s with r1 := x }

/-- An amount taken from R1. A negative difference leaves its magnitude and takes one from R2, and
    both are zero when R2 underflows. -/
def subtract (amount : Nat) (s : Sheet) : Sheet :=
  let x : Int := (s.r1 : Int) - amount
  if x < 0 then
    if (s.r2 : Int) - 1 < 0 then { s with r1 := 0, r2 := 0 }
    else { s with r1 := x.natAbs, r2 := s.r2 - 1 }
  else { s with r1 := x.toNat }

/-- One added to R1, or to R2 when R1 would exceed $FF; neither goes beyond. -/
def increment (s : Sheet) : Sheet :=
  let x := s.r1 + 1
  if x > 0xFF then { s with r1 := 0xFF, r2 := min (s.r2 + 1) 0xFF } else { s with r1 := x }

end Sheet

/-! ## 2. The table -/

/-- A line of the instruction table. -/
structure Row where
  code : Nat
  mnemonic : String
  length : Nat
  effect : Sheet → Sheet

open Sheet in
/-- The line of an opcode. -/
def row : Opcode → Row
  | .nul => ⟨0x00, "NUL", 1, goOn 1⟩
  | .mar => ⟨0x01, "MAR", 3, fun s => { s with ar := s.operand 1 + 0x100 * s.operand 2 }.goOn 3⟩
  | .sic => ⟨0x02, "SIC", 1, fun s => (s.storePair (s.ic % 0x100) (s.ic / 0x100)).goOn 1⟩
  | .rar => ⟨0x03, "RAR", 1, fun s => { s with ar := s.r2 <<< 8 ||| s.r1 }.goOn 1⟩
  | .aar => ⟨0x04, "AAR", 1, fun s => { s with ar := (s.ar + s.r0) % 0x10000 }.goOn 1⟩
  | .ir0 => ⟨0x05, "IR0", 1, fun s => { s with r0 := min (s.r0 + 1) 0xFF }.goOn 1⟩
  | .a01 => ⟨0x06, "A01", 1, fun s => s.add.goOn 1⟩
  | .dr0 => ⟨0x07, "DR0", 1, fun s => { s with r0 := (max ((s.r0 : Int) - 1) 0).toNat }.goOn 1⟩
  | .s01 => ⟨0x08, "S01", 1, fun s => (s.subtract s.r0).goOn 1⟩
  | .x12 => ⟨0x09, "X12", 1, fun s => { s with r1 := s.r2, r2 := s.r1 }.goOn 1⟩
  | .x01 => ⟨0x10, "X01", 1, fun s => { s with r0 := s.r1, r1 := s.r0 }.goOn 1⟩
  | .jmp => ⟨0x11, "JMP", 1, jump⟩
  | .sr0 => ⟨0x12, "SR0", 1, fun s => (s.store s.ar s.r0).goOn 1⟩
  | .srw => ⟨0x13, "SRW", 1, fun s => (s.storePair s.r1 s.r2).goOn 1⟩
  | .lr0 => ⟨0x14, "LR0", 1, fun s => { s with r0 := s.data 0 }.goOn 1⟩
  | .lrw => ⟨0x15, "LRW", 1, fun s => { s with r1 := s.data 0, r2 := s.data 1 }.goOn 1⟩
  | .taw => ⟨0x16, "TAW", 1, fun s => { s with r1 := s.ar % 0x100, r2 := s.ar >>> 8 }.goOn 1⟩
  | .mr0 => ⟨0x17, "MR0", 2, fun s => { s with r0 := s.operand 1 }.goOn 2⟩
  | .mrw => ⟨0x18, "MRW", 3, fun s => { s with r1 := s.operand 1, r2 := s.operand 2 }.goOn 3⟩
  | .jz0 => ⟨0x19, "JZ0", 1, fun s => if s.r0 = 0 then s.jump else s.goOn 1⟩
  | .jgw => ⟨0x20, "JGW", 1, fun s => if s.r1 > s.r2 then s.jump else s.goOn 1⟩
  | .jew => ⟨0x21, "JEW", 1, fun s => if s.r1 = s.r2 then s.jump else s.goOn 1⟩
  | .or0 => ⟨0x22, "OR0", 2, fun s => { s with r0 := s.r0 ||| s.operand 1 }.goOn 2⟩
  | .an0 => ⟨0x23, "AN0", 2, fun s => { s with r0 := s.r0 &&& s.operand 1 }.goOn 2⟩
  | .je0 => ⟨0x24, "JE0", 2, fun s => if s.r0 = s.operand 1 then s.jump else s.goOn 2⟩
  | .c01 => ⟨0x25, "C01", 1, fun s => { s with r1 := s.r0 }.goOn 1⟩
  | .c02 => ⟨0x26, "C02", 1, fun s => { s with r2 := s.r0 }.goOn 1⟩
  | .irw => ⟨0x27, "IRW", 1, fun s => s.increment.goOn 1⟩
  | .drw => ⟨0x28, "DRW", 1, fun s => (s.subtract 1).goOn 1⟩
  | .x03 => ⟨0x29, "X03", 1, fun s => { s with r0 := s.r3, r3 := s.r0 }.goOn 1⟩
  | .c03 => ⟨0x2A, "C03", 1, fun s => { s with r3 := s.r0 }.goOn 1⟩
  | .c30 => ⟨0x2B, "C30", 1, fun s => { s with r0 := s.r3 }.goOn 1⟩
  -- the bit pushed out at the top is lost, so that R0 keeps its width
  | .pl0 => ⟨0x2C, "PL0", 1, fun s => { s with r0 := (s.r0 <<< 1) % 0x100 }.goOn 1⟩
  | .pr0 => ⟨0x2D, "PR0", 1, fun s => { s with r0 := s.r0 >>> 1 }.goOn 1⟩
  | .hlt => ⟨0xFF, "HLT", 1, fun s => { s with halted := true }.goOn 1⟩

/-- The table has the byte that encodes an opcode, its mnemonic and its length. -/
theorem row_columns (op : Opcode) :
    (row op).code = op.byte.toNat ∧ (row op).mnemonic = op.mnemonic ∧
      (row op).length = op.size.toNat := by
  cases op <;> exact ⟨rfl, rfl, rfl⟩

/-- **A byte is in the table exactly when it decodes.** -/
theorem code_row_eq_iff {b : UInt8} {op : Opcode} :
    (row op).code = b.toNat ↔ Opcode.ofByte? b = some op := by
  rw [(row_columns op).1]
  constructor
  · intro h
    rw [← UInt8.toNat.inj h, Opcode.ofByte?_byte]
  · intro h
    rw [Opcode.byte_of_ofByte? h]

/-- No line counts cycles. -/
theorem cycles_effect (op : Opcode) (s : Sheet) : ((row op).effect s).cycles = s.cycles := by
  cases op
  case a01 | s01 | drw =>
    simp only [row, Sheet.goOn, Sheet.add, Sheet.subtract, apply_ite Sheet.cycles, ite_self]
  case irw | jz0 | jgw | jew | je0 =>
    simp only [row, Sheet.goOn, Sheet.jump, Sheet.increment, apply_ite Sheet.cycles, ite_self]
  all_goals rfl

/-! ## 3. Processors as sheets -/

namespace Cpu

variable {M : Type} [Memory M]

/-- The numbers that a memory holds. There is nothing beyond the last address. -/
def numbers (m : M) (a : Nat) : Nat :=
  if a < 0x10000 then (Memory.read m (UInt16.ofNat a)).toNat else 0

/-- A processor in numbers. -/
def sheet (c : Cpu M) : Sheet where
  ar := c.regs.ar.toNat
  ic := c.regs.ic.toNat
  r0 := c.regs.r0.toNat
  r1 := c.regs.r1.toNat
  r2 := c.regs.r2.toNat
  r3 := c.regs.r3.toNat
  halted := c.regs.halted
  opcode := c.regs.opcode.toNat
  cycles := c.cycles.toNat
  mem := numbers c.memory

theorem numbers_toNat (m : M) (a : UInt16) : numbers m a.toNat = (Memory.read m a).toNat := by
  unfold numbers
  rw [if_pos a.toNat_lt, UInt16.ofNat_toNat]

/-- Two memories with the same numbers hold the same bytes. -/
theorem agree_of_numbers_eq {N : Type} [Memory N] {m : M} {n : N} (h : numbers m = numbers n) :
    Memory.Agree m n := by
  intro a
  have ha := congrFun h a.toNat
  rw [numbers_toNat, numbers_toNat] at ha
  exact UInt8.toNat.inj ha

theorem numbers_eq_of_agree {N : Type} [Memory N] {m : M} {n : N} (h : Memory.Agree m n) :
    numbers m = numbers n := by
  funext a
  unfold numbers
  rw [h]

/-- **Nothing of a processor is missing on its sheet.** -/
theorem sheet_inj {N : Type} [Memory N] {c : Cpu M} {d : Cpu N} (h : c.sheet = d.sheet) :
    c.regs = d.regs ∧ c.cycles = d.cycles ∧ Memory.Agree c.memory d.memory := by
  obtain ⟨⟨_, _, _, _, _, _, _, _⟩, _, _⟩ := c
  obtain ⟨⟨_, _, _, _, _, _, _, _⟩, _, _⟩ := d
  obtain ⟨har, hic, h0, h1, h2, h3, hh, ho, hc, hm⟩ := (Sheet.mk.injEq ..).mp h
  refine ⟨?_, UInt64.toNat.inj hc, agree_of_numbers_eq hm⟩
  cases UInt16.toNat.inj har
  cases UInt16.toNat.inj hic
  cases UInt8.toNat.inj h0
  cases UInt8.toNat.inj h1
  cases UInt8.toNat.inj h2
  cases UInt8.toNat.inj h3
  cases UInt8.toNat.inj ho
  cases hh
  rfl

theorem sheet_eq {N : Type} [Memory N] {c : Cpu M} {d : Cpu N} (hr : c.regs = d.regs)
    (hc : c.cycles = d.cycles) (hm : Memory.Agree c.memory d.memory) : c.sheet = d.sheet := by
  unfold sheet
  rw [hr, hc, numbers_eq_of_agree hm]

end Cpu

end Retro24
