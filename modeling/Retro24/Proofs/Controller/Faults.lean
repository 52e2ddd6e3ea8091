/-
  File:      Retro24/Proofs/Controller/Faults.lean
  Subject:   A fault leaves a machine that fails in the same way whatever is tried next.

  * `Machine.runBatch_error_iff`: a batch fails where the run of its processor does, and leaves
    everything but the processor as it was.
  * `Undisturbed.run_of_fault`: a run that nobody disturbs fails in its first batch.
  * `Machine.Stuck`: a machine on which steps, batches and runs all fail with one fault and change
    nothing. `Stuck.of_fetch`: one that stands in front of a byte that encodes no opcode.
  * `faults_clean_and_stable`: what a fault leaves, and that it is stuck.
-/
import Retro24.Proofs.Controller.Undisturbed
import Retro24.Proofs.Machine.Resets
import Retro24.Proofs.Processor.Faults

namespace Retro24

/-! ## 1. Batches that fail -/

namespace Machine

variable {m m' : Machine} {cycles : UInt32} {e : MachineError} {fault : CpuFault} {c' : Cpu Bus}

/-- **A batch fails exactly where the run of its processor does.** The processor is left where the
    run leaves it, with the draw flag not looked at, and everything else as it was. -/
theorem runBatch_error_iff :
    m.runBatch cycles = (.error e, m') ↔
      ∃ fault c', m.cpu.run cycles.toNat = (.error fault, c') ∧ e = .cpu fault ∧
        m' = m.withCpu fun _ => c' := by
  constructor
  · intro h
    rcases run : m.cpu.run cycles.toNat with ⟨(fault | k), c'⟩
    · rw [runBatch_of_fault run] at h
      cases h
      exact ⟨fault, c', rfl, rfl, rfl⟩
    · have done := (runBatch_of_run run).1
      rw [h] at done
      cases done
  · rintro ⟨fault, c', run, rfl, rfl⟩
    exact runBatch_of_fault run

end Machine

/-! ## 2. Runs that fail at once -/

namespace Controller

variable {σ : Type} {budget : Option UInt64} {c : Controller} {fault : CpuFault}

/-- There is always a first turn. -/
theorem exists_enoughTurns (budget : Option UInt64) (c : Controller) :
    ∃ turns, enoughTurns budget c = turns + 1 := by
  cases budget with
  | none => exact ⟨0x3FFFFFFFFFFFFFFF, rfl⟩
  | some limit => exact ⟨limit.toNat + c.channel.pending + 1, rfl⟩

/-- **A run that nobody disturbs fails in its first batch if the processor finds no opcode**, and
    leaves the machine as it was. -/
theorem Alone.run_of_fault (alone : c.Alone) (awake : c.panel.console.machine.halted = false)
    (fetch : c.panel.console.machine.cpu.fetch = .error fault)
    (filled : 1 ≤ c.panel.console.machine.batchLength)
    (room : ∀ limit, budget = some limit → 0 < limit) (observe : σ → Frame → σ) (start : σ) :
    ∃ c', c'.Alone ∧ c'.panel.console.machine = c.panel.console.machine ∧
      run? observe start budget c = some (.error (.cpu fault), start, c') := by
  obtain ⟨cycles, size, some⟩ := batchSize_start filled room
  have batch := Machine.runBatch_fault awake fetch some
  have result : (c.panel.console.runBatch cycles).1 = .error (.cpu fault) :=
    (Console.runBatch_result c.panel.console cycles).trans (congrArg Prod.fst batch)
  have machine := (Console.runBatch_machine c.panel.console cycles).trans (congrArg Prod.snd batch)
  have failed := c.panel.runBatch_eq cycles
  rw [result] at failed
  have ran : Ran observe budget ⟨0, 0, start⟩ c.panel c.channel _ _ := .failed awake size failed
  have went := turned_iff.mpr ⟨_, alone.went ran⟩
  obtain ⟨turns, enough⟩ := exists_enoughTurns budget c
  let behind : Panel := { c.panel with console := (c.panel.console.runBatch cycles).2 }
  refine ⟨⟨behind, c.channel⟩, ⟨⟨alone.pause, alone.queue, alone.upcoming⟩, alone.stop⟩, machine, ?_⟩
  rw [run?, enough, runFor_eq, turnsFrom, went]
  rfl

end Controller

/-! ## 3. Faults -/

namespace Machine

variable {m m' : Machine} {fault : CpuFault}

/-- A machine that fails with one fault and does not change, whatever is tried: a step, a batch, a
    run of the processor, or a run of a controller that nobody disturbs, unless the budget of these
    is empty. The controller runs batches of the machine's own length, which is never zero on a
    machine that can be reached. -/
structure Stuck (m : Machine) (fault : CpuFault) : Prop where
  step : m.step = (.error (.cpu fault), m)
  batch (cycles : UInt32) : 1 ≤ cycles → m.runBatch cycles = (.error (.cpu fault), m)
  run (n : Nat) : 1 ≤ n → m.cpu.run n = (.error fault, m.cpu)
  controlled {σ : Type} (observe : σ → Frame → σ) (start : σ) (budget : Option UInt64)
    (c : Controller) : c.panel.console.machine = m → c.Alone → 1 ≤ m.batchLength →
    (∀ limit, budget = some limit → 0 < limit) →
    ∃ c', c'.Alone ∧ c'.panel.console.machine = m ∧
      c.run? observe start budget = some (.error (.cpu fault), start, c')

theorem Stuck.of_fetch (awake : m.halted = false) (fetch : m.cpu.fetch = .error fault) :
    m.Stuck fault where
  step := step_of_fault awake fetch
  batch _ filled := runBatch_fault awake fetch filled
  run n filled := by
    obtain ⟨n, rfl⟩ := Nat.exists_eq_add_one.mpr filled
    exact Cpu.run_of_fault awake fetch n
  controlled observe start budget c same alone filled room := by
    subst same
    exact alone.run_of_fault awake fetch filled room observe start

/-- What a failed run or batch of a machine leaves: the processor behind fewer cycles than were
    asked for, everything else as it was, and a machine that is stuck. -/
structure FailedIn (m : Machine) (budget : Nat) (fault : CpuFault) (m' : Machine) : Prop where
  cycles : ∃ k, k < budget ∧ m.cpu.FaultLeft k fault m'.cpu
  others : m' = m.withCpu fun _ => m'.cpu
  stuck : m'.Stuck fault

theorem FailedIn.of_run {n : Nat} {c' : Cpu Bus} (run : m.cpu.run n = (.error fault, c')) :
    m.FailedIn n fault (m.withCpu fun _ => c') := by
  obtain ⟨k, inside, left⟩ := Cpu.run_error_iff.mp run
  exact ⟨⟨k, inside, left⟩, rfl, .of_fetch left.awake left.fetch⟩

/-- **A fault is clean and stable.** A run of a processor with any memory fails only in front of a
    byte that encodes no opcode, behind fewer cycles than it may do, and leaves the processor just
    there, where every other run fails in the same way. The same holds of a run of the processor of
    a machine and of a batch; in a batch the draw flag has not been served, and the frame, the
    number of pictures and all the rest are as they were; and from there steps, batches and runs all
    fail with the same fault and change nothing. -/
theorem faults_clean_and_stable {M : Type} [Memory M] [LawfulMemory M] (c : Cpu M) (m : Machine) :
    (∀ n fault c', c.run n = (.error fault, c') →
      (∃ k, k < n ∧ c.FaultLeft k fault c') ∧ c'.clock = (.error fault, c') ∧
        ∀ n', 1 ≤ n' → c'.run n' = (.error fault, c')) ∧
    (∀ n fault c', m.cpu.run n = (.error fault, c') →
      m.FailedIn n fault (m.withCpu fun _ => c')) ∧
    ∀ cycles e m', m.runBatch cycles = (.error e, m') →
      ∃ fault, e = .cpu fault ∧ m.FailedIn cycles.toNat fault m' := by
  refine ⟨?_, ?_, ?_⟩
  · intro n fault c' run
    obtain ⟨k, inside, left⟩ := Cpu.run_error_iff.mp run
    refine ⟨⟨k, inside, left⟩, left.clock_again, ?_⟩
    intro n' filled
    exact left.run_again filled
  · intro n fault c' run
    exact .of_run run
  · intro cycles e m' batch
    obtain ⟨fault, c', run, rfl, rfl⟩ := runBatch_error_iff.mp batch
    exact ⟨fault, rfl, .of_run run⟩

/-- A machine with a program of a NUL and a byte that encodes no opcode. -/
def stranding : Machine := powerOn.loaded (.ofBytes [0x00, 0x0C])

theorem stranding_fresh : Cpu.Fresh powerOn.bus [0x00, 0x0C] stranding.cpu := by
  have fits : (Program.ofBytes [0x00, 0x0C]).length ≤ programLimit := by decide
  exact powerOn.fresh_loaded fits

/-- It does one cycle. -/
theorem stranding_run :
    stranding.cpu.run 5 = (.error (.unknownOpcode 0x0C 0x0101), stranding.cpu.perform .nul) := by
  have awake : stranding.cpu.halted = false := congrArg Registers.halted stranding_fresh.regs
  have place : stranding.cpu.regs.ic = 0x0100 := congrArg Registers.ic stranding_fresh.regs
  have first : stranding.cpu.fetch = .ok .nul := by
    have byte : Memory.read stranding.cpu.memory 0x0100 = 0x00 := stranding_fresh.image 0 (by decide)
    simp only [Cpu.fetch, place, byte]
    rfl
  have second : (stranding.cpu.perform .nul).fetch = .error (.unknownOpcode 0x0C 0x0101) := by
    have calm : (0x0101 : UInt16) ∉ stranding.cpu.stores := by
      rw [Cpu.stores, first]
      exact List.not_mem_nil
    have byte : Memory.read (stranding.cpu.perform .nul).memory 0x0101 = 0x0C :=
      (Cpu.read_perform first calm).trans (stranding_fresh.image 1 (by decide))
    have place : (stranding.cpu.perform .nul).regs.ic = 0x0101 := congrArg (· + 1) place
    simp only [Cpu.fetch, place, byte]
    rfl
  have awake' : (stranding.cpu.perform .nul).halted = false := awake
  rw [Cpu.run_of_fetch awake first, Cpu.run_of_fault awake' second]
  rfl

/-- One cycle is done of five that were asked for, and then nothing more. -/
theorem faults_clean_and_stable_stranding :
    ∃ (m' : Machine) (c : Controller),
      stranding.runBatch 5 = (.error (.cpu (.unknownOpcode 0x0C 0x0101)), m') ∧
      m'.cpu.cycles = 1 ∧ m'.frame = stranding.frame ∧
      m'.step = (.error (.cpu (.unknownOpcode 0x0C 0x0101)), m') ∧
      m'.runBatch 7 = (.error (.cpu (.unknownOpcode 0x0C 0x0101)), m') ∧
      (Controller.start ⟨m', .blank none⟩).run? (fun n _ => n + 1) 0 none =
        some (.error (.cpu (.unknownOpcode 0x0C 0x0101)), 0, c) ∧
      c.panel.console.machine = m' := by
  have batch : stranding.runBatch 5 = _ := runBatch_of_fault stranding_run
  obtain ⟨-, -, batches⟩ := faults_clean_and_stable stranding.cpu stranding
  obtain ⟨fault, same, -, -, stuck⟩ := batches _ _ _ batch
  cases same
  have filled : 1 ≤ stranding.batchLength := (sound_powerOn.loaded (by decide)).batch
  obtain ⟨c, -, machine, failed⟩ := stuck.controlled (fun n _ => n + 1) 0 none
    (.start ⟨_, .blank none⟩) rfl ⟨⟨rfl, rfl, rfl⟩, rfl⟩ filled nofun
  have counted : (stranding.cpu.perform .nul).cycles = 1 :=
    congrArg (· + 1) stranding_fresh.cycles
  exact ⟨_, c, batch, counted, rfl, stuck.step, stuck.batch 7 (by decide), failed, machine⟩

end Machine
end Retro24
