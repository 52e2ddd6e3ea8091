/-
  File:      Retro24/Trace.lean
  Subject:   What the processor reports about its cycles.

  * `Cpu.remark`: the report of one instruction, made when the watchdogs have moved and nothing else
    has: the statement as it is executed and the registers before it.
  * `Cpu.remarkCycle`: the report of one cycle, or of the fault that it meets.
  * `Cpu.narration`: the reports of a run, one for each cycle done.
-/
import Retro24.Journal

namespace Retro24.Cpu

variable {M : Type} [Memory M]

/-- The report of the instruction at IC. -/
@[specialize] def remark (c : Cpu M) : Entry :=
  .executing c.regs.ic (Statement.fetch c.memory c.regs.ic) c.regs

/-- The report of one cycle, whether the processor is halted or not. -/
@[specialize] def remarkCycle (c : Cpu M) : Entry :=
  match c.fetch with
  | .error fault => .fault fault
  | .ok op => (c.tick op).remark

/-- The reports of a run, on top of those in `done`, which stand the last one first. -/
@[specialize] def narrationFrom (done : List Entry) (c : Cpu M) : Nat → List Entry
  | 0 => done.reverse
  | budget + 1 =>
    if c.halted then done.reverse
    else
      match c.fetch with
      | .error _ => done.reverse
      | .ok op =>
        let c := c.tick op
        narrationFrom (c.remark :: done) (c.complete op) budget

/-- The reports of up to `budget` cycles that end early at a halt or a fault. -/
@[inline] def narration (c : Cpu M) (budget : Nat) : List Entry := narrationFrom [] c budget

end Retro24.Cpu

namespace Retro24.Journal

/-- The journal with the reports of the cycles that a processor is about to do. -/
@[specialize] def watch {M : Type} [Memory M] (j : Journal) (c : Cpu M) (budget : Nat) : Journal :=
  if j.admits .trace then j.noteAll (c.narration budget) else j

end Retro24.Journal
