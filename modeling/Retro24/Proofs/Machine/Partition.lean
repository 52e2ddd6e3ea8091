/-
  File:      Retro24/Proofs/Machine/Partition.lean
  Subject:   Runs of the processor that are cut into batches.

  * `Machine.runBatch_of_run`, `Machine.runBatch_of_fault`: a batch is a run of the processor, with
    the draw flag served at its end (`Cpu.served`).
  * `Cpu.Batched`: how a processor goes on in batches until it halts, finds no opcode or has done the
    cycles of a budget. `exists_batched`: it always gets there.
  * `Batched.append`: two budgets one after the other are their sum, when the first one is made up of
    whole batches.
  * `Batched.follows_run`: where no instruction reads the draw flag, batches of every length do what
    the run in one piece does.
  * `Machine.idling`: a machine that does two cycles of which nothing is seen.
-/
import Retro24.Proofs.Machine.Batches
import Retro24.Proofs.Processor.Hidden

namespace Retro24

/-! ## 1. Batches as runs of the processor -/

/-- The processor with its draw flag served: a flag that is set is taken back. -/
def Cpu.served (c : Cpu Bus) : Cpu Bus :=
  if c.memory.wantsRedraw then { c with memory := c.memory.withdrawRedraw } else c

@[simp]
theorem Cpu.halted_served (c : Cpu Bus) : c.served.halted = c.halted := by
  unfold served
  split <;> rfl

namespace Machine

variable {m : Machine} {cycles : UInt32} {c : Cpu Bus} {fault : CpuFault} {k : Nat}

/-- The steps of a batch are a run of the processor. -/
theorem stepsFrom_eq_run (m : Machine) (done : UInt32) (limit : Nat) :
    m.stepsFrom done limit =
      (match (m.cpu.run limit).1 with
        | .ok k => .ok (done + UInt32.ofNat k)
        | .error fault => .error (.cpu fault),
      m.withCpu fun _ => (m.cpu.run limit).2) := by
  induction limit generalizing m done with
  | zero => exact congrArg (fun d => (Except.ok d, m)) (UInt32.add_zero done).symm
  | succ limit ih =>
    rw [stepsFrom_succ]
    rcases m.cpu.run_cases with halt | ⟨awake, fault, fetch⟩ | ⟨awake, op, fetch⟩
    · have stays : m.step = (.ok false, m) := by
        simp only [step, halted, halt, if_true]
      rw [stays, Cpu.run_of_halted halt]
      exact congrArg (fun d => (Except.ok d, m)) (UInt32.add_zero done).symm
    · rw [step_of_fault awake fetch, Cpu.run_of_fault awake fetch]
      rfl
    · have does : m.step = (.ok true, m.withCpu (·.perform op)) := by
        simp only [step, halted, awake, fetch, Bool.false_eq_true, if_false]
      have place : (m.withCpu (·.perform op)).cpu = m.cpu.perform op := rfl
      rw [does, Cpu.run_of_fetch awake fetch]
      simp only [ih, place]
      cases ((m.cpu.perform op).run limit).1 with
      | error fault => rfl
      | ok k =>
        simp only [Except.map, UInt32.ofNat_add, ← UInt32.add_assoc]
        rfl

theorem redrawIfAsked_fst (m : Machine) : m.redrawIfAsked.1 = m.bus.wantsRedraw := by
  unfold redrawIfAsked
  split
  · next asked => exact asked.symm
  · next idle => exact (Bool.eq_false_iff.mpr idle).symm

theorem redrawIfAsked_cpu (m : Machine) : m.redrawIfAsked.2.cpu = m.cpu.served := by
  unfold redrawIfAsked Cpu.served bus
  split <;> rfl

theorem redrawIfAsked_batchLength (m : Machine) :
    m.redrawIfAsked.2.batchLength = m.batchLength := by
  unfold redrawIfAsked
  split <;> rfl

/-- **A batch that succeeds is a run of the processor and then one look at the draw flag.** -/
theorem runBatch_eq_of_run (run : m.cpu.run cycles.toNat = (.ok k, c)) :
    m.runBatch cycles = (.ok ⟨UInt32.ofNat k, c.memory.wantsRedraw, c.halted⟩,
      (m.withCpu fun _ => c).redrawIfAsked.2) := by
  have behind : (m.stepsFrom 0 cycles.toNat) = (.ok (UInt32.ofNat k), m.withCpu fun _ => c) := by
    rw [stepsFrom_eq_run, run]
    exact congrArg (fun d => (Except.ok d, m.withCpu fun _ => c)) (UInt32.zero_add _)
  have halt : (m.withCpu fun _ => c).redrawIfAsked.2.halted = c.halted := by
    rw [halted, redrawIfAsked_cpu]
    exact c.halted_served
  rw [runBatch_eq, behind]
  simp only [redrawIfAsked_fst, halt]
  rfl

/-- What it answers, and what processor and batch length are left. -/
theorem runBatch_of_run (run : m.cpu.run cycles.toNat = (.ok k, c)) :
    (m.runBatch cycles).1 = .ok ⟨UInt32.ofNat k, c.memory.wantsRedraw, c.halted⟩ ∧
      (m.runBatch cycles).2.cpu = c.served ∧
      (m.runBatch cycles).2.batchLength = m.batchLength := by
  rw [runBatch_eq_of_run run]
  exact ⟨rfl, redrawIfAsked_cpu _, redrawIfAsked_batchLength _⟩

/-- A batch that fails leaves the draw flag as it was. -/
theorem runBatch_of_fault (run : m.cpu.run cycles.toNat = (.error fault, c)) :
    m.runBatch cycles = (.error (.cpu fault), m.withCpu fun _ => c) := by
  have behind : (m.stepsFrom 0 cycles.toNat) = (.error (.cpu fault), m.withCpu fun _ => c) := by
    rw [stepsFrom_eq_run, run]
  rw [runBatch_eq, behind]

end Machine

/-! ## 2. Batch after batch -/

namespace Cpu

/-- How a processor goes on in batches under a budget: with what result, behind how many cycles, as
    what processor, and with which attempts. Halting is looked at first, then the budget; a batch is
    cut short by what the budget leaves, and the draw flag is served behind each batch. -/
inductive Batched (length : Nat) : Nat → Cpu Bus → Except CpuFault RunEnd → Nat → Cpu Bus →
    List (Cpu Bus) → Prop where
  | halted (left : Nat) {c : Cpu Bus} (halt : c.halted = true) :
      Batched length left c (.ok .halted) 0 c []
  | spent {c : Cpu Bus} (awake : c.halted = false) :
      Batched length 0 c (.ok .budgetExhausted) 0 c []
  | failed {left : Nat} {c c' : Cpu Bus} {fault : CpuFault} (awake : c.halted = false)
      (room : 0 < left) (batch : c.run (min length left) = (.error fault, c')) :
      Batched length left c (.error fault) 0 c' (c.attempts (min length left))
  | more {left k j : Nat} {c c₁ c' : Cpu Bus} {result : Except CpuFault RunEnd}
      {tried : List (Cpu Bus)} (awake : c.halted = false) (room : 0 < left)
      (batch : c.run (min length left) = (.ok k, c₁))
      (rest : Batched length (left - k) c₁.served result j c' tried) :
      Batched length left c result (k + j) c' (c.attempts (min length left) ++ tried)

variable {length left k : Nat} {c c' d : Cpu Bus} {result : Except CpuFault RunEnd}
  {tried : List (Cpu Bus)}

/-- **In batches that are not empty a budget is always done with**: by recursion on what it leaves,
    of which each batch takes something. -/
theorem exists_batched (filled : 0 < length) (left : Nat) (c : Cpu Bus) :
    ∃ result k c' tried, Batched length left c result k c' tried := by
  cases halt : c.halted with
  | true => exact ⟨_, _, _, _, .halted left halt⟩
  | false =>
    by_cases room : 0 < left
    · rcases batch : c.run (min length left) with ⟨(fault | k), c₁⟩
      · exact ⟨_, _, _, _, .failed halt room batch⟩
      · have some : 0 < k := run_filled halt (Nat.lt_min.mpr ⟨filled, room⟩) batch
        obtain ⟨result, j, c', tried, rest⟩ := exists_batched filled (left - k) c₁.served
        exact ⟨_, _, _, _, .more halt room batch rest⟩
    · cases Nat.eq_zero_of_not_pos room
      exact ⟨_, _, _, _, .spent halt⟩
termination_by left
decreasing_by omega

/-- A processor that is halted does nothing more. -/
theorem Batched.of_halted (h : Batched length left c result k c' tried) (halt : c.halted = true) :
    result = .ok .halted ∧ k = 0 ∧ c' = c ∧ tried = [] := by
  cases h with
  | halted => exact ⟨rfl, rfl, rfl, rfl⟩
  | spent awake => exact absurd (halt.symm.trans awake) nofun
  | failed awake => exact absurd (halt.symm.trans awake) nofun
  | more awake => exact absurd (halt.symm.trans awake) nofun

/-- **Two budgets one after the other**, of which the first one is made up of whole batches, are one
    budget: its batches are cut at the same places. -/
theorem Batched.append {reason : RunEnd} {first second j : Nat} {c₁ : Cpu Bus}
    {others : List (Cpu Bus)} (h : Batched length first c (.ok reason) k c₁ tried)
    (whole : length ∣ first) (rest : Batched length second c₁ result j c' others) :
    Batched length (first + second) c result (k + j) c' (tried ++ others) := by
  generalize ended : (.ok reason : Except CpuFault RunEnd) = earlier at h
  induction h with
  | halted left halt =>
    obtain ⟨rfl, rfl, rfl, rfl⟩ := rest.of_halted halt
    exact .halted _ halt
  | spent =>
    rw [Nat.zero_add, Nat.zero_add]
    exact rest
  | failed => cases ended
  | @more left k i c c₂ c₁ result' tried' awake room batch before ih =>
    have long : length ≤ left := Nat.le_of_dvd room whole
    have bound := run_le batch
    have size : min length (left + second) = min length left := by omega
    have behind : Batched length (left - k + second) c₂.served result (i + j) c'
        (tried' ++ others) := by
      by_cases short : k < min length left
      · -- the processor halted inside the batch, and what is left of the budget does not matter
        have halt : c₂.served.halted = true := by
          rw [halted_served]
          exact run_short batch short
        obtain ⟨-, rfl, rfl, rfl⟩ := before.of_halted halt
        obtain ⟨rfl, rfl, rfl, rfl⟩ := rest.of_halted halt
        exact .halted _ halt
      · have taken : k = length := by omega
        refine ih ?_ rest ended
        rw [taken]
        exact Nat.dvd_sub whole (Nat.dvd_refl length)
    have left' : left + second - k = left - k + second := by omega
    rw [Nat.add_assoc, List.append_assoc, ← size]
    refine .more awake (by omega) (by rw [size]; exact batch) ?_
    rw [left']
    exact behind

/-! ## 3. The draw flag -/

/-- Serving the draw flag moves no byte but that one. -/
theorem sameBut_served (c : Cpu Bus) : SameBut Bus.drawFlagAddress c.served c := by
  unfold served
  split
  · exact ⟨rfl, rfl, fun b other => LawfulMemory.read_write_of_ne c.memory 0 other⟩
  · exact .refl _ c

/-- What is fetched is the same, unless it is that byte itself. -/
theorem fetch_served (code : c.regs.ic ≠ Bus.drawFlagAddress) : c.served.fetch = c.fetch := by
  have same := sameBut_served c
  refine same.fetch ?_
  rw [same.regs]
  exact code

/-- **Where nothing reads the draw flag, batches do what one run does**: they end with the same
    fault, or behind as many cycles, halted exactly if the run is, and with the same processor but
    for the flag. It is enough that one of the two does not read it. -/
theorem Batched.follows_run (h : Batched length left c result k c' tried)
    (same : SameBut Bus.drawFlagAddress c d)
    (blind : Ignore Bus.drawFlagAddress tried ∨ Ignore Bus.drawFlagAddress (d.attempts left)) :
    (d.run left).1 = result.map (fun _ => k) ∧
      (∀ reason, result = .ok reason →
        reason = if (d.run left).2.halted then .halted else .budgetExhausted) ∧
      SameBut Bus.drawFlagAddress c' (d.run left).2 ∧ Ignore Bus.drawFlagAddress tried ∧
      Ignore Bus.drawFlagAddress (d.attempts left) := by
  induction h generalizing d with
  | @halted left c halt =>
    have halt' := same.halted.symm.trans halt
    rw [run_of_halted halt', attempts_of_halted halt']
    refine ⟨rfl, fun reason ended => ?_, same, nofun, nofun⟩
    cases ended
    rw [if_pos halt']
  | @spent c awake =>
    have awake' := same.halted.symm.trans awake
    refine ⟨rfl, fun reason ended => ?_, same, nofun, nofun⟩
    cases ended
    rw [run_zero, awake']
    rfl
  | @failed left c c' fault awake room batch =>
    have inside : min length left ≤ left := Nat.min_le_right length left
    have one := blind.imp id (Ignore.part inside)
    obtain ⟨fails, behind, blind, blind'⟩ := same.run_either one
    rw [batch] at fails behind
    have first : d.run (min length left) = (.error fault, (d.run (min length left)).2) :=
      Prod.ext fails.symm rfl
    obtain ⟨run, attempts⟩ := run_split_error first inside
    rw [run, attempts]
    exact ⟨rfl, nofun, behind, blind, blind'⟩
  | @more left k j c c₁ c' result tried awake room batch rest ih =>
    have inside : min length left ≤ left := Nat.min_le_right length left
    have one := blind.imp Ignore.left (Ignore.part inside)
    obtain ⟨does, behind, first, first'⟩ := same.run_either one
    rw [batch] at does behind
    have begun : d.run (min length left) = (.ok k, (d.run (min length left)).2) :=
      Prod.ext does.symm rfl
    obtain ⟨run, attempts⟩ := run_split begun inside
    rw [attempts] at blind ⊢
    have next := (sameBut_served c₁).trans behind
    obtain ⟨count, reason, last, others, others'⟩ := ih next (blind.imp Ignore.right Ignore.right)
    rw [run]
    refine ⟨?_, reason, last, first.append others, first'.append others'⟩
    rw [count]
    cases result <;> rfl

/-! ## 4. A machine that idles -/

/-- A budget of one cycle. -/
theorem batched_one {op : Opcode} (filled : 0 < length) (awake : c.halted = false)
    (fetch : c.fetch = .ok op) (still : (c.perform op).halted = false) :
    Batched length 1 c (.ok .budgetExhausted) 1 (c.perform op).served (c.attempts 1) := by
  have one : min length 1 = 1 := by omega
  have batch : c.run (min length 1) = (.ok 1, c.perform op) := by
    rw [one]
    exact run_of_fetch awake fetch 0
  have awake' : (c.perform op).served.halted = false := (halted_served _).trans still
  have both := Batched.more awake Nat.one_pos batch (.spent awake')
  rwa [one, List.append_nil] at both

/-- Behind a NUL the next byte is fetched, unless it is one of the watchdogs. -/
theorem fetch_behind_nul (next : Memory.read c.memory (c.regs.ic + 1) = 0)
    (tick : c.regs.ic + 1 ≠ tickAddress) (tock : c.regs.ic + 1 ≠ tockAddress) :
    (c.perform .nul).fetch = .ok .nul := by
  have byte : Memory.read (c.perform .nul).memory (c.perform .nul).regs.ic = 0 := by
    show Memory.read (moveWatchdogs c.memory) (c.regs.ic + 1) = 0
    rw [moveWatchdogs, LawfulMemory.read_write_of_ne _ _ tock,
      LawfulMemory.read_write_of_ne _ _ tick]
    exact next
  simp only [Cpu.fetch, byte]
  rfl

end Cpu

namespace Machine

/-- A machine with a program of two NUL. -/
def idling : Machine := (powerOn.mount "Program" [0x00, 0x00]).2

theorem idling_eq :
    idling = { powerOn.softReset.withBus (Memory.store · startAddress [0x00, 0x00]) with
      program := some (.ofBytes [0x00, 0x00]) } := by
  rw [idling, mount_eq powerOn (by decide)]

/-- It is about to do two cycles. -/
theorem idling_code :
    idling.cpu.halted = false ∧ idling.cpu.regs.ic = startAddress ∧
      Memory.read idling.cpu.memory startAddress = 0 ∧
      Memory.read idling.cpu.memory (startAddress + 1) = 0 := by
  rw [idling_eq]
  refine ⟨rfl, rfl, ?_, ?_⟩
  · show Memory.read (Memory.store (M := Bus) _ startAddress [0x00, 0x00]) startAddress = 0
    rw [Memory.store_cons, Memory.store_cons, Memory.store_nil, Memory.read_write,
      Memory.read_write]
    rfl
  · show Memory.read (Memory.store (M := Bus) _ startAddress [0x00, 0x00]) (startAddress + 1) = 0
    rw [Memory.store_cons, Memory.store_cons, Memory.store_nil, Memory.read_write,
      Memory.read_write]
    rfl

theorem idling_fetch :
    idling.cpu.fetch = .ok .nul ∧ (idling.cpu.perform .nul).fetch = .ok .nul ∧
      (idling.cpu.perform .nul).served.fetch = .ok .nul := by
  obtain ⟨-, place, here, next⟩ := idling_code
  have first : idling.cpu.fetch = .ok .nul := by
    simp only [Cpu.fetch, place, here]
    rfl
  have second : (idling.cpu.perform .nul).fetch = .ok .nul := by
    refine Cpu.fetch_behind_nul ?_ ?_ ?_ <;> rw [place]
    · exact next
    · decide
    · decide
  have code : (idling.cpu.perform .nul).regs.ic ≠ Bus.drawFlagAddress := by
    show idling.cpu.regs.ic + 1 ≠ Bus.drawFlagAddress
    rw [place]
    decide
  exact ⟨first, second, (Cpu.fetch_served code).trans second⟩

/-- It does one cycle when its budget has one. -/
theorem idling_batched {length : Nat} (filled : 0 < length) :
    Cpu.Batched length 1 idling.cpu (.ok .budgetExhausted) 1 (idling.cpu.perform .nul).served
      (idling.cpu.attempts 1) :=
  Cpu.batched_one filled idling_code.1 idling_fetch.1 idling_code.1

end Machine

end Retro24
