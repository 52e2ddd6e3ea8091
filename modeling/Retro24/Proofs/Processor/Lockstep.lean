/-
  File:      Retro24/Proofs/Processor/Lockstep.lean
  Subject:   Two processors over memories of different make run in lockstep.

  * `clock_lockstep`: equal sheets give the same result of a cycle and equal sheets behind it; this is
    the step of the simulation. The memories may be of any two lawful kinds.
  * `clocks_lockstep`, `runFrom_lockstep`: the same of any number of cycles, and of a run with any
    budget.
  * `banked_follows_flat`: the banked address space against the flat one.
-/
import Retro24.Proofs.Memory.Image
import Retro24.Proofs.Processor.Cycle

namespace Retro24.Cpu

open Memory (read)

variable {M N : Type} [Memory M] [Memory N] {c : Cpu M} {d : Cpu N}

/-! ## 1. One cycle -/

theorem fetch_lockstep (h : c.sheet = d.sheet) : c.fetch = d.fetch := by
  obtain ⟨regs, -, agree⟩ := sheet_inj h
  simp only [fetch]
  rw [regs, agree]

variable [LawfulMemory M] [LawfulMemory N]

theorem perform_lockstep (h : c.sheet = d.sheet) (op : Opcode) :
    (c.perform op).sheet = (d.perform op).sheet := by
  rw [sheet_perform, sheet_perform, h]

/-- **One cycle of both: the same result, and equal sheets behind it.** -/
theorem clock_lockstep (h : c.sheet = d.sheet) :
    c.clock.1 = d.clock.1 ∧ c.clock.2.sheet = d.clock.2.sheet := by
  simp only [clock, cycle, fetch_lockstep h]
  cases d.fetch with
  | error fault => exact ⟨rfl, h⟩
  | ok op => exact ⟨rfl, perform_lockstep h op⟩

/-! ## 2. Runs -/

theorem clocks_lockstep (h : c.sheet = d.sheet) (n : Nat) :
    (c.clocks n).1 = (d.clocks n).1 ∧ (c.clocks n).2.sheet = (d.clocks n).2.sheet := by
  induction n generalizing c d with
  | zero => exact ⟨rfl, h⟩
  | succ n ih =>
    obtain ⟨result, behind⟩ := clock_lockstep h
    obtain ⟨results, last⟩ := ih behind
    refine ⟨?_, last⟩
    show c.clock.1 :: (c.clock.2.clocks n).1 = d.clock.1 :: (d.clock.2.clocks n).1
    rw [result, results]

/-- A run stops for the same reason after as many cycles. -/
theorem runFrom_lockstep (h : c.sheet = d.sheet) (done budget : Nat) :
    (c.runFrom done budget).1 = (d.runFrom done budget).1 ∧
      (c.runFrom done budget).2.sheet = (d.runFrom done budget).2.sheet := by
  induction budget generalizing c d done with
  | zero => exact ⟨rfl, h⟩
  | succ budget ih =>
    have halted : c.halted = d.halted := congrArg Sheet.halted h
    rw [runFrom, runFrom, halted, fetch_lockstep h]
    cases d.halted with
    | true => exact ⟨rfl, h⟩
    | false =>
      cases d.fetch with
      | error fault => exact ⟨rfl, h⟩
      | ok op => exact ih (perform_lockstep h op) (done + 1)

/-! ## 3. The banked and the flat address space -/

/-- A processor over banks and one over flat memory that cannot be told apart. -/
structure SameState (c : Cpu Bus) (d : Cpu FlatMemory) : Prop where
  regs : c.regs = d.regs
  cycles : c.cycles = d.cycles
  image : Memory.image c.memory = d.memory.bytes.toList
  /-- The regions of the banks make up that image. -/
  regions : c.memory.regions = Memory.image c.memory

theorem sheet_eq_of_image {c : Cpu Bus} {d : Cpu FlatMemory} (regs : c.regs = d.regs)
    (cycles : c.cycles = d.cycles) (image : Memory.image c.memory = d.memory.bytes.toList) :
    c.sheet = d.sheet := by
  rw [← FlatMemory.image_eq] at image
  exact sheet_eq regs cycles (Memory.image_eq_iff.mp image)

theorem sameState_of_sheet_eq {c : Cpu Bus} {d : Cpu FlatMemory} (h : c.sheet = d.sheet) :
    SameState c d := by
  obtain ⟨regs, cycles, agree⟩ := sheet_inj h
  refine ⟨regs, cycles, ?_, Bus.regions_eq_image c.memory⟩
  rw [← FlatMemory.image_eq]
  exact Memory.image_eq_iff.mpr agree

/-- **The banked address space is flat memory, over whole runs.** From equal registers, counters and
    bytes, any number of cycles and a run with any budget give the same results on both and states
    that are the same again; and an access through a wide address is the access to it, or is refused
    without a change. -/
theorem banked_follows_flat (c : Cpu Bus) (d : Cpu FlatMemory) (regs : c.regs = d.regs)
    (cycles : c.cycles = d.cycles) (image : Memory.image c.memory = d.memory.bytes.toList) :
    SameState c d ∧
    (∀ n, (c.clocks n).1 = (d.clocks n).1 ∧ SameState (c.clocks n).2 (d.clocks n).2) ∧
    (∀ budget, (c.run budget).1 = (d.run budget).1 ∧
      SameState (c.run budget).2 (d.run budget).2) ∧
    ∀ (b : Bus) (a : UInt64) (v : UInt8),
      (a.toNat ≤ 0xFFFF →
        b.readWide a = .ok (b.read (UInt16.ofNat a.toNat)) ∧
        b.settle (b.writeWide a v) = (.ok (), b.write (UInt16.ofNat a.toNat) v)) ∧
      (0xFFFF < a.toNat →
        b.readWide a = .error ⟨a.toNat⟩ ∧ b.settle (b.writeWide a v) = (.error ⟨a.toNat⟩, b)) := by
  have start : c.sheet = d.sheet := sheet_eq_of_image regs cycles image
  refine ⟨sameState_of_sheet_eq start, fun n => ?_, fun budget => ?_, Bus.wide_access⟩
  · obtain ⟨results, behind⟩ := clocks_lockstep start n
    exact ⟨results, sameState_of_sheet_eq behind⟩
  · obtain ⟨result, behind⟩ := runFrom_lockstep start 0 budget
    exact ⟨result, sameState_of_sheet_eq behind⟩

/-- An `SRW` at the first byte of RAM whose target is the last byte of the IO page: its second byte
    lands on the instruction itself. -/
def crossing : Cpu Bus :=
  ⟨{ Registers.powerOn with ar := 0x00FF, r1 := 0x12, r2 := 0x09 }, 0, Bus.blank.write 0x0100 0x13⟩

/-- Three cycles run across the border of two regions in the same way as over flat memory. -/
theorem banked_follows_flat_crossing :
    let flat : Cpu FlatMemory := ⟨crossing.regs, 0, .copy crossing.memory⟩
    (flat.clocks 3).1 = (crossing.clocks 3).1 ∧ SameState (crossing.clocks 3).2 (flat.clocks 3).2 ∧
      (crossing.clocks 3).2.memory.read 0x0100 = 0x09 := by
  intro flat
  have image : Memory.image crossing.memory = flat.memory.bytes.toList := by
    rw [← FlatMemory.image_eq]
    exact Memory.image_eq_iff.mpr (FlatMemory.agree_copy crossing.memory)
  obtain ⟨-, cycles, -, -⟩ := banked_follows_flat crossing flat rfl rfl image
  obtain ⟨results, same⟩ := cycles 3
  exact ⟨results.symm, same, by decide +kernel⟩

end Retro24.Cpu
