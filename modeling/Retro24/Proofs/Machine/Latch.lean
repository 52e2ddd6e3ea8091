/-
  File:      Retro24/Proofs/Machine/Latch.lean
  Subject:   The halt latch, and what is done to a machine while it is set.

  * `Cpu.halted_execute`, `Cpu.halted_clock_iff`: an opcode sets the latch if it is `HLT`, and no
    opcode takes it back, also if the processor is clocked while it is halted.
  * `Machine.Idled`: registers, counter and memory are as they were, but for the draw flag and the
    keyboard byte.
  * `Request.wakes`: the requests that may take the latch back. `Request.calm`: those that neither do
    this nor write to the banks directly.
  * `Answer.Idle`: an answer reports no cycle and no fault.
  * `idled_serve`: a halted machine idles through a calm request; `halted_serve`: it stays halted in
    every request that does not wake it.
-/
import Retro24.Proofs.Machine.Services

namespace Retro24

open Memory (read)

/-! ## 1. Cycles -/

namespace Registers

theorem halted_addWord (r : Registers) : r.addWord.halted = r.halted := by
  simp only [addWord, apply_ite Registers.halted, ite_self]

theorem halted_subtractWord (r : Registers) (amount : UInt8) :
    (r.subtractWord amount).halted = r.halted := by
  simp only [subtractWord, apply_ite Registers.halted, ite_self]

theorem halted_incrementWord (r : Registers) : r.incrementWord.halted = r.halted := by
  simp only [incrementWord, apply_ite Registers.halted, ite_self]

end Registers

namespace Cpu

variable {M : Type} [Memory M] {c : Cpu M}

/-- **The latch is set by `HLT`, and no opcode takes it back.** -/
theorem halted_execute (op : Opcode) (c : Cpu M) :
    (c.execute op).halted = (c.halted || decide (op = .hlt)) := by
  have kept (r : Registers) (same : r.halted = c.regs.halted) :
      r.halted = (c.halted || false) := same.trans (Bool.or_false _).symm
  have branched (condition : Bool) (n : UInt16) :
      (c.branch condition n).regs.halted = c.regs.halted := by
    cases condition <;> rfl
  cases op
  case hlt => exact (Bool.or_true _).symm
  case jz0 | jgw | jew | je0 => exact kept _ (branched _ _)
  case a01 => exact kept _ c.regs.halted_addWord
  case s01 | drw => exact kept _ (c.regs.halted_subtractWord _)
  case irw => exact kept _ c.regs.halted_incrementWord
  all_goals exact kept _ rfl

/-- Behind a cycle the processor is halted if it was, or if the cycle was an `HLT`. -/
theorem halted_clock_iff :
    c.clock.2.halted = true ↔ c.halted = true ∨ c.fetch = .ok .hlt := by
  cases fetch : c.fetch with
  | error fault =>
    rw [clock_of_fault fetch]
    constructor
    · exact .inl
    · rintro (halt | found)
      · exact halt
      · cases found
  | ok op =>
    have latch : (c.perform op).halted = (c.halted || decide (op = .hlt)) :=
      halted_execute op (c.tick op)
    rw [clock_of_fetch fetch, latch, Bool.or_eq_true, decide_eq_true_iff, Except.ok.injEq]

/-- So it stays halted through any number of cycles. -/
theorem halted_clocks (halt : c.halted = true) (n : Nat) : (c.clocks n).2.halted = true := by
  induction n generalizing c with
  | zero => exact halt
  | succ n ih => exact ih (halted_clock_iff.mpr (.inl halt))

end Cpu

/-! ## 2. Requests -/

/-- Whether a request may take the halt latch back: a reset, a load, and registers restored. -/
def Request.wakes : Request → Bool
  | .softReset | .hardReset | .installProgram _ | .installFile _ _ | .mount _ _ | .reload
  | .restore _ => true
  | _ => false

/-- Whether a request neither does this nor writes to the banks directly. -/
def Request.calm : Request → Bool
  | .bus _ => false
  | r => !r.wakes

/-- An answer reports no cycle, and no fault. -/
def Answer.Idle : Answer → Prop
  | .flag result => result = .ok false
  | .report result => ∃ redrawn, result = .ok ⟨0, redrawn, true⟩
  | .frame result => ∃ frame, result = .ok frame
  | .machine result => ∀ fault, result ≠ .error (.cpu fault)
  | .nothing | .redrawn _ | .bus _ | .state _ => True

namespace Machine

/-- From one machine to another one nothing was executed: registers and counter are the same, and so
    is memory but for the draw flag and the keyboard byte. -/
structure Idled (m m' : Machine) : Prop where
  registers : m'.registers = m.registers
  counter : m'.cpu.cycles = m.cpu.cycles
  memory (a : UInt16) : a ≠ Bus.drawFlagAddress → a ≠ keyboardAddress → read m'.bus a = read m.bus a

variable {m m' m'' : Machine}

theorem Idled.refl (m : Machine) : m.Idled m := ⟨rfl, rfl, fun _ _ _ => rfl⟩

theorem Idled.trans (h : m.Idled m') (h' : m'.Idled m'') : m.Idled m'' :=
  ⟨h'.registers.trans h.registers, h'.counter.trans h.counter, fun a flag keyboard =>
    (h'.memory a flag keyboard).trans (h.memory a flag keyboard)⟩

theorem Idled.halted (h : m.Idled m') : m'.halted = m.halted :=
  congrArg Registers.halted h.registers

theorem idled_redrawIfAsked (m : Machine) : m.Idled m.redrawIfAsked.2 := by
  have served := m.redrawIfAsked_cpu
  have same := Cpu.sameBut_served m.cpu
  refine ⟨?_, ?_, fun a flag _ => ?_⟩
  · rw [registers, served]
    exact same.regs
  · rw [served]
    exact same.cycles
  · rw [bus, served]
    exact same.bytes a flag

/-- The keyboard byte is written by keys only. -/
theorem idled_keyboard (m : Machine) (v : UInt8) :
    m.Idled (m.withBus (·.write keyboardAddress v)) :=
  ⟨rfl, rfl, fun _ _ keyboard => LawfulMemory.read_write_of_ne m.bus v keyboard⟩

/-- A step of a halted machine does nothing. -/
theorem step_of_halted (halt : m.halted = true) : m.step = (.ok false, m) := by
  rw [step, if_pos halt]

/-- A batch of a halted machine looks at the draw flag only. -/
theorem runBatch_of_halted (halt : m.halted = true) (n : UInt32) :
    m.runBatch n = (.ok ⟨0, m.bus.wantsRedraw, true⟩, m.redrawIfAsked.2) := by
  have run : m.cpu.run n.toNat = (.ok 0, m.cpu) := Cpu.run_of_halted halt n.toNat
  have latch : m.cpu.halted = true := halt
  rw [runBatch_eq_of_run run, latch]
  rfl

/-- **A halted machine idles through a calm request**, which is answered accordingly. -/
theorem idled_serve (halt : m.halted = true) {r : Request} (calm : r.calm = true) :
    (m.serve r).1.Idle ∧ m.Idled (m.serve r).2 := by
  cases r with
  | step =>
    have step := step_of_halted halt
    refine ⟨congrArg Prod.fst step, ?_⟩
    show m.Idled m.step.2
    rw [step]
    exact .refl m
  | runBatch n =>
    have batch := runBatch_of_halted halt n
    refine ⟨⟨_, congrArg Prod.fst batch⟩, ?_⟩
    show m.Idled (m.runBatch n).2
    rw [batch]
    exact m.idled_redrawIfAsked
  | nextFrame =>
    have batch := runBatch_of_halted halt m.batchLength
    have next : m.nextFrame = (.ok m.redrawIfAsked.2.frame, m.redrawIfAsked.2) := by
      rw [nextFrame, batch]
    refine ⟨⟨_, congrArg Prod.fst next⟩, ?_⟩
    show m.Idled m.nextFrame.2
    rw [next]
    exact m.idled_redrawIfAsked
  | redrawIfAsked => exact ⟨trivial, m.idled_redrawIfAsked⟩
  | redraw => exact ⟨⟨_, rfl⟩, rfl, rfl, fun _ _ _ => rfl⟩
  | press k => exact ⟨trivial, m.idled_keyboard k.mask⟩
  | release => exact ⟨trivial, m.idled_keyboard 0⟩
  | unmount id =>
    show (∀ fault, (m.unmount id).1 ≠ .error (.cpu fault)) ∧ m.Idled (m.unmount id).2
    unfold unmount
    split
    · refine ⟨fun fault same => ?_, rfl, rfl, fun _ _ _ => rfl⟩
      cases same
    · refine ⟨fun fault same => ?_, .refl m⟩
      cases same
  | setBatchLength n => exact ⟨trivial, rfl, rfl, fun _ _ _ => rfl⟩
  | recolor c argb => exact ⟨trivial, rfl, rfl, fun _ _ _ => rfl⟩
  | _ => cases calm

/-- **Only resets, loads and restored registers take the latch back.** -/
theorem halted_serve (halt : m.halted = true) {r : Request} (still : r.wakes = false) :
    (m.serve r).2.halted = true := by
  cases r with
  | bus r => exact halt
  | softReset | hardReset | installProgram | installFile | mount | reload | restore => cases still
  | _ => exact (idled_serve halt rfl).2.halted.trans halt

end Machine
end Retro24
