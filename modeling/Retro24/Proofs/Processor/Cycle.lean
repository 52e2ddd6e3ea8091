/-
  File:      Retro24/Proofs/Processor/Cycle.lean
  Subject:   One cycle does what the instruction table lists.

  * `sheet_withRegs`, `sheet_advance`, `sheet_branch`, `sheet_write`: what the parts of an effect do
    to the sheet of a processor.
  * `sheet_addWord`, `sheet_subtractWord`, `sheet_incrementWord`: the arithmetic of bytes is that of
    integers, with the limits of the table.
  * `sheet_execute`: the effect of an opcode is that of its line; `sheet_tick`: the watchdogs move as
    on the sheet; `sheet_perform` is both, with the counter.
  * `clock_follows_table`: the statement about one cycle, faults included.

  The memory is any lawful one, so that the banked address space and the flat one are both meant.
-/
import Retro24.Proofs.Processor.Table

namespace Retro24.Cpu

variable {M : Type} [Memory M]

open Memory (read write)

/-! ## 1. Fetching -/

/-- The byte at IC, on the sheet. -/
theorem mem_ic_sheet (c : Cpu M) : c.sheet.mem c.sheet.ic = (read c.memory c.regs.ic).toNat :=
  numbers_toNat c.memory c.regs.ic

theorem clock_of_ofByte? {c : Cpu M} {op : Opcode}
    (h : Opcode.ofByte? (read c.memory c.regs.ic) = some op) :
    c.clock = (.ok op, c.perform op) := by
  simp only [clock, cycle, fetch, h]

theorem clock_of_ofByte?_none {c : Cpu M} (h : Opcode.ofByte? (read c.memory c.regs.ic) = none) :
    c.clock = (.error (.unknownOpcode (read c.memory c.regs.ic) c.regs.ic), c) := by
  simp only [clock, cycle, fetch, h]

/-- A byte that no line of the table has decodes to nothing. -/
theorem ofByte?_eq_none_iff {c : Cpu M} :
    Opcode.ofByte? (read c.memory c.regs.ic) = none ↔
      ∀ op, (row op).code ≠ c.sheet.mem c.sheet.ic := by
  rw [Option.eq_none_iff_forall_ne_some, mem_ic_sheet]
  exact forall_congr' fun op => not_congr code_row_eq_iff.symm

/-! ## 2. Registers and operands -/

theorem toNat_operand (c : Cpu M) (n : UInt16) :
    (c.operand n).toNat = c.sheet.operand n.toNat := by
  unfold operand
  rw [← numbers_toNat, UInt16.toNat_add]
  rfl

theorem toNat_data (c : Cpu M) (n : UInt16) :
    (read c.memory (c.regs.ar + n)).toNat = c.sheet.data n.toNat := by
  rw [← numbers_toNat, UInt16.toNat_add]
  rfl

theorem toNat_data_zero (c : Cpu M) : (read c.memory c.regs.ar).toNat = c.sheet.data 0 := by
  have h := c.toNat_data 0
  rwa [UInt16.add_zero] at h

theorem sheet_withRegs (c : Cpu M) (f : Registers → Registers) :
    (c.withRegs f).sheet =
      { c.sheet with
        ar := (f c.regs).ar.toNat, ic := (f c.regs).ic.toNat, r0 := (f c.regs).r0.toNat,
        r1 := (f c.regs).r1.toNat, r2 := (f c.regs).r2.toNat, r3 := (f c.regs).r3.toNat,
        halted := (f c.regs).halted, opcode := (f c.regs).opcode.toNat } := rfl

theorem sheet_advance (c : Cpu M) (n : UInt16) : (c.advance n).sheet = c.sheet.goOn n.toNat := by
  simp only [advance, sheet, Sheet.goOn, UInt16.toNat_add]

theorem sheet_branch (c : Cpu M) (condition : Bool) (n : UInt16) :
    (c.branch condition n).sheet = if condition then c.sheet.jump else c.sheet.goOn n.toNat := by
  cases condition with
  | true => rfl
  | false => exact c.sheet_advance n

/-! ## 3. Arithmetic -/

/-- A byte is full when one more does not fit. -/
theorem full_iff {b : UInt8} : b = 0xFF ↔ b.toNat + 1 > 0xFF := by
  have hb := b.toNat_lt
  rw [← UInt8.toNat_inj]
  show b.toNat = 255 ↔ _
  omega

theorem toNat_next {b : UInt8} (h : ¬b.toNat + 1 > 0xFF) : (b + 1).toNat = b.toNat + 1 := by
  rw [UInt8.toNat_add]
  exact Nat.mod_eq_of_lt (by show b.toNat + 1 < 256; omega)

theorem toNat_raised (b : UInt8) :
    (if b = 0xFF then 0xFF else b + 1).toNat = min (b.toNat + 1) 0xFF := by
  by_cases h : b.toNat + 1 > 0xFF
  · rw [if_pos (full_iff.mpr h), Nat.min_eq_right (by omega)]
    rfl
  · rw [if_neg (mt full_iff.mp h), toNat_next h, Nat.min_eq_left (by omega)]

theorem toNat_lowered (b : UInt8) :
    (if b = 0 then 0 else b - 1).toNat = (max ((b.toNat : Int) - 1) 0).toNat := by
  by_cases h : b = 0
  · subst h
    rfl
  · rw [if_neg h, UInt8.toNat_sub]
    have hb := b.toNat_lt
    have hz : b.toNat ≠ 0 := fun e => h (UInt8.toNat.inj e)
    show (2 ^ 8 - 1 + b.toNat) % 2 ^ 8 = _
    omega

theorem sheet_addWord (c : Cpu M) : (c.withRegs Registers.addWord).sheet = c.sheet.add := by
  obtain ⟨⟨ar, ic, r0, r1, r2, r3, halted, opcode⟩, cycles, memory⟩ := c
  have h0 := r0.toNat_lt
  have h1 := r1.toNat_lt
  have h2 := r2.toNat_lt
  have carry : r1 + r0 < r1 ↔ r1.toNat + r0.toNat > 0xFF := by
    rw [UInt8.lt_iff_toNat_lt, UInt8.toNat_add]
    omega
  rw [sheet_withRegs]
  simp only [Registers.addWord, Sheet.add, sheet, carry, full_iff]
  by_cases hx : r1.toNat + r0.toNat > 0xFF
  · by_cases hr : r2.toNat + 1 > 0xFF
    · simp only [hx, hr, if_true]
      rfl
    · simp only [hx, hr, if_true, if_false, toNat_next hr, UInt8.toNat_add]
  · have kept : (r1 + r0).toNat = r1.toNat + r0.toNat := by
      rw [UInt8.toNat_add]
      exact Nat.mod_eq_of_lt (by omega)
    simp only [hx, if_false, kept]

theorem sheet_subtractWord (c : Cpu M) (f : Registers → UInt8) :
    (c.withRegs fun r => r.subtractWord (f r)).sheet = c.sheet.subtract (f c.regs).toNat := by
  obtain ⟨⟨ar, ic, r0, r1, r2, r3, halted, opcode⟩, cycles, memory⟩ := c
  rw [sheet_withRegs]
  generalize f ⟨ar, ic, r0, r1, r2, r3, halted, opcode⟩ = amount
  have h1 := r1.toNat_lt
  have h2 := r2.toNat_lt
  have ha := amount.toNat_lt
  have borrow : r1 < amount ↔ (r1.toNat : Int) - amount.toNat < 0 := by
    rw [UInt8.lt_iff_toNat_lt]
    omega
  have empty : r2 = 0 ↔ (r2.toNat : Int) - 1 < 0 := by
    rw [← UInt8.toNat_inj]
    show r2.toNat = 0 ↔ _
    omega
  simp only [Registers.subtractWord, Sheet.subtract, sheet, borrow, empty]
  by_cases hx : (r1.toNat : Int) - amount.toNat < 0
  · by_cases hr : (r2.toNat : Int) - 1 < 0
    · simp only [hx, hr, if_true]
      rfl
    · have magnitude : (amount - r1).toNat = ((r1.toNat : Int) - amount.toNat).natAbs := by
        rw [UInt8.toNat_sub]
        omega
      have less : (r2 - 1).toNat = r2.toNat - 1 := by
        rw [UInt8.toNat_sub]
        show (2 ^ 8 - 1 + r2.toNat) % 2 ^ 8 = r2.toNat - 1
        omega
      simp only [hx, hr, if_true, if_false, magnitude, less]
  · have difference : (r1 - amount).toNat = ((r1.toNat : Int) - amount.toNat).toNat := by
      rw [UInt8.toNat_sub]
      omega
    simp only [hx, if_false, difference]

theorem sheet_incrementWord (c : Cpu M) :
    (c.withRegs Registers.incrementWord).sheet = c.sheet.increment := by
  obtain ⟨⟨ar, ic, r0, r1, r2, r3, halted, opcode⟩, cycles, memory⟩ := c
  have full := @full_iff r1
  rw [sheet_withRegs]
  simp only [Registers.incrementWord, Sheet.increment, sheet, full]
  by_cases hx : r1.toNat + 1 > 0xFF
  · have high : r1.toNat = 0xFF := congrArg UInt8.toNat (full.mpr hx)
    simp only [hx, if_true, toNat_raised]
    rw [high]
  · simp only [hx, if_false, toNat_next hx]

/-! ## 4. Effects -/

variable [LawfulMemory M]

theorem numbers_write (m : M) (a : UInt16) (v : UInt8) :
    numbers (write m a v) = fun b => if b = a.toNat then v.toNat else numbers m b := by
  funext b
  by_cases hb : b < 0x10000
  · obtain ⟨b, rfl⟩ : ∃ w : UInt16, b = w.toNat :=
      ⟨UInt16.ofNat b, (UInt16.toNat_ofNat_of_lt' hb).symm⟩
    rw [numbers_toNat, numbers_toNat, Memory.read_write]
    simp only [UInt16.toNat_inj]
    split <;> rfl
  · have ha := a.toNat_lt
    rw [if_neg (by omega)]
    unfold numbers
    rw [if_neg hb, if_neg hb]

theorem sheet_write (c : Cpu M) (a : UInt16) (v : UInt8) :
    ({ c with memory := write c.memory a v } : Cpu M).sheet = c.sheet.store a.toNat v.toNat := by
  simp only [sheet, Sheet.store, numbers_write]

theorem sheet_writeWord (c : Cpu M) (low high : UInt8) :
    ({ c with memory := Memory.writeWord c.memory c.regs.ar low high } : Cpu M).sheet =
      c.sheet.storePair low.toNat high.toNat := by
  have first := c.sheet_write c.regs.ar low
  have second := sheet_write { c with memory := write c.memory c.regs.ar low } (c.regs.ar + 1) high
  rw [first, UInt16.toNat_add] at second
  exact second

/-- **An opcode has the effect that the table lists for it.** -/
theorem sheet_execute (op : Opcode) (c : Cpu M) :
    (c.execute op).sheet = (row op).effect c.sheet := by
  cases op
  -- bytes and words moved from one register to another
  case nul | x12 | x01 | c01 | c02 | x03 | c03 | c30 | hlt => exact sheet_advance _ 1
  case rar =>
    have joined (low high : UInt8) :
        low.toNat + 256 * high.toNat = high.toNat <<< 8 ||| low.toNat := by
      rw [← Nat.shiftLeft_add_eq_or_of_lt low.toNat_lt, Nat.shiftLeft_eq]
      omega
    simp only [execute, sheet_advance, sheet_withRegs, Word.toNat_ofBytes, joined]
    rfl
  case taw =>
    simp only [execute, sheet_advance, sheet_withRegs, Word.toNat_low, Word.toNat_high, row,
      Nat.shiftRight_eq_div_pow]
    rfl
  -- arithmetic on one register
  case aar | ir0 | dr0 | pl0 | pr0 =>
    simp only [execute, sheet_advance, sheet_withRegs, UInt16.toNat_add, UInt8.toNat_toUInt16,
      toNat_raised, toNat_lowered, UInt8.toNat_shiftLeft, UInt8.toNat_shiftRight]
    rfl
  case a01 | irw =>
    simp only [execute, sheet_advance, sheet_addWord, sheet_incrementWord]
    rfl
  case s01 =>
    rw [execute, sheet_advance, c.sheet_subtractWord (·.r0)]
    rfl
  case drw =>
    rw [execute, sheet_advance, c.sheet_subtractWord fun _ => 1]
    rfl
  -- bytes taken from memory
  case mar | mr0 | mrw | lr0 | lrw | or0 | an0 =>
    simp only [execute, sheet_advance, sheet_withRegs, Word.toNat_ofBytes, toNat_operand,
      toNat_data, toNat_data_zero, UInt8.toNat_or, UInt8.toNat_and]
    rfl
  -- bytes put into memory
  case sic | sr0 | srw =>
    simp only [execute, sheet_advance, sheet_write, sheet_writeWord, Word.toNat_low,
      Word.toNat_high]
    rfl
  -- jumps
  case jmp => rfl
  case jz0 | jgw | jew | je0 =>
    simp only [execute, sheet_branch, beq_iff_eq, decide_eq_true_eq, UInt8.lt_iff_toNat_lt,
      ← UInt8.toNat_inj, toNat_operand]
    rfl

/-! ## 5. One cycle -/

theorem toNat_tick (b : UInt8) : (b + 1).toNat = (b.toNat + 1) % 0x100 := UInt8.toNat_add b 1

theorem toNat_tock (b : UInt8) : (b - 1).toNat = (((b.toNat : Int) - 1) % 0x100).toNat := by
  have hb := b.toNat_lt
  rw [UInt8.toNat_sub]
  show (2 ^ 8 - 1 + b.toNat) % 2 ^ 8 = _
  omega

/-- The watchdogs move as the table's preamble says, and the opcode is noted. -/
theorem sheet_tick (op : Opcode) (c : Cpu M) :
    (c.tick op).sheet = { c.sheet.tick with opcode := op.byte.toNat } := by
  obtain ⟨regs, cycles, m⟩ := c
  have other : read (write m tickAddress (read m tickAddress + 1)) tockAddress =
      read m tockAddress := LawfulMemory.read_write_of_ne m _ (by decide)
  have moved : numbers (moveWatchdogs m) = (sheet ⟨regs, cycles, m⟩).tick.mem := by
    simp only [moveWatchdogs, numbers_write, other, toNat_tick, toNat_tock, ← numbers_toNat]
    rfl
  simp only [tick, sheet, moved]
  rfl

theorem sheet_perform (op : Opcode) (c : Cpu M) :
    (c.perform op).sheet =
      { (row op).effect { c.sheet.tick with opcode := (row op).code } with
        cycles := (c.sheet.cycles + 1) % 0x10000000000000000 } := by
  have counted (d : Cpu M) : (d.complete op).sheet =
      { (d.execute op).sheet with cycles := ((d.execute op).sheet.cycles + 1) % 0x10000000000000000 } := by
    simp only [complete, sheet, UInt64.toNat_add]
    rfl
  rw [perform, counted, sheet_execute, sheet_tick, cycles_effect, (row_columns op).1]
  rfl

/-- **One cycle follows the instruction table.** A byte that is in no line of it is a fault, which
    leaves the processor as it was. A byte in the line of an opcode, taken before the watchdogs
    move, gives that opcode; the watchdogs move, the line's effect follows on what they leave, the
    byte is noted, and one more cycle is counted. -/
theorem clock_follows_table (c : Cpu M) :
    (c.clock.1 = .error (.unknownOpcode (read c.memory c.regs.ic) c.regs.ic) ↔
      ∀ op, (row op).code ≠ c.sheet.mem c.sheet.ic) ∧
    ((∀ op, (row op).code ≠ c.sheet.mem c.sheet.ic) → c.clock.2 = c) ∧
    ∀ op, (row op).code = c.sheet.mem c.sheet.ic →
      c.clock.1 = .ok op ∧
      c.clock.2.sheet =
        { (row op).effect { c.sheet.tick with opcode := c.sheet.mem c.sheet.ic } with
          cycles := (c.sheet.cycles + 1) % 0x10000000000000000 } := by
  refine ⟨⟨fun h => ?_, fun h => ?_⟩, fun h => ?_, fun op h => ?_⟩
  · rw [← ofByte?_eq_none_iff, Option.eq_none_iff_forall_ne_some]
    intro op decoded
    rw [clock_of_ofByte? decoded] at h
    cases h
  · rw [clock_of_ofByte?_none (ofByte?_eq_none_iff.mpr h)]
  · rw [clock_of_ofByte?_none (ofByte?_eq_none_iff.mpr h)]
  · rw [← h]
    rw [mem_ic_sheet] at h
    rw [clock_of_ofByte? (code_row_eq_iff.mp h)]
    exact ⟨rfl, sheet_perform op c⟩

/-- A `MAR` in front of the watchdog bytes, which are its operand. -/
def overlapping : Cpu FlatMemory :=
  ⟨{ Registers.powerOn with ic := 0x000F }, 0,
    ((FlatMemory.filled 0).write 0x000F 0x01).write 0x0010 0xFF⟩

/-- The operand is read behind the watchdogs: $FF and $00 have become $00 and $FF. -/
theorem clock_follows_table_overlapping :
    overlapping.clock.1 = .ok .mar ∧ overlapping.clock.2.sheet.ar = 0xFF00 := by
  have code : (row .mar).code = overlapping.sheet.mem overlapping.sheet.ic := by decide +kernel
  obtain ⟨-, -, found⟩ := clock_follows_table overlapping
  obtain ⟨result, sheet⟩ := found .mar code
  refine ⟨result, ?_⟩
  rw [sheet]
  decide +kernel

end Retro24.Cpu
