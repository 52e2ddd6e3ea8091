/-
  File:      Retro24/Proofs/Processor/Faults.lean
  Subject:   Where a run fails, and what the cycles in front of the fault have left.

  * `Cpu.Does`: a number of cycles one after another that are all done. `Does.run`: a run goes
    through them, and `does_of_run`: it is made up of them; `Does.cancel`: what is done behind the
    first of them.
  * `Does.read`: a byte that none of the instructions stores in stays, but for the watchdogs, which
    move by one with each cycle.
  * `Cpu.FaultLeft`: the processor behind a number of cycles, in front of a byte that encodes no
    opcode. `run_error_iff`: a run fails there, and only there.
  * `FaultLeft.clock_again`, `FaultLeft.run_again`: a cycle or a run from there fails with the same
    fault and changes nothing.
-/
import Retro24.Proofs.Processor.Stores

namespace Retro24

open Memory (read write)

/-! ## 1. Cycles that are done -/

namespace Cpu

theorem branch_cycles {M : Type} (c : Cpu M) (condition : Bool) (n : UInt16) :
    (c.branch condition n).cycles = c.cycles := by
  cases condition <;> rfl

variable {M : Type} [Memory M] {b c c' : Cpu M} {op : Opcode} {fault : CpuFault} {i j k n : Nat}

/-- A number of cycles one after another, each of a processor that is not halted. -/
inductive Does : Cpu M → Nat → Cpu M → Prop where
  | zero (c : Cpu M) : Does c 0 c
  | succ {c c' : Cpu M} {op : Opcode} {k : Nat} (awake : c.halted = false)
      (fetch : c.fetch = .ok op) (rest : Does (c.perform op) k c') : Does c (k + 1) c'

theorem execute_cycles (op : Opcode) (c : Cpu M) : (c.execute op).cycles = c.cycles := by
  cases op
  case jz0 | jgw | jew | je0 => exact c.branch_cycles _ _
  all_goals rfl

theorem cycles_perform (op : Opcode) (c : Cpu M) : (c.perform op).cycles = c.cycles + 1 :=
  congrArg (· + 1) (execute_cycles op (c.tick op))

/-- The counter counts them. -/
theorem Does.cycles (h : c.Does k c') : c'.cycles = c.cycles + UInt64.ofNat k := by
  induction h with
  | zero c => exact (UInt64.add_zero c.cycles).symm
  | @succ c c' op k awake fetch rest ih =>
    rw [ih, cycles_perform, UInt64.add_assoc, UInt64.add_comm 1, UInt64.ofNat_add]
    rfl

/-- What is done behind the first of them. -/
theorem Does.cancel (first : c.Does i b) (all : c.Does (i + j) c') : b.Does j c' := by
  induction first with
  | zero c => rwa [Nat.zero_add] at all
  | @succ c b op i awake fetch rest ih =>
    rw [Nat.add_right_comm] at all
    cases all with
    | succ _ fetch' rest' =>
      cases fetch.symm.trans fetch'
      exact ih rest'

/-- **A run goes through cycles that are done.** -/
theorem Does.run (h : c.Does k b) (n : Nat) :
    c.run (k + n) = ((b.run n).1.map (k + ·), (b.run n).2) := by
  induction h with
  | zero c =>
    rw [Nat.zero_add, ← runFrom_eq]
    rfl
  | @succ c b op k awake fetch rest ih =>
    rw [Nat.add_right_comm, run_of_fetch awake fetch, ih]
    cases (b.run n).1 with
    | error fault => rfl
    | ok i => simp only [Except.map, Nat.add_comm 1, Nat.add_right_comm]

/-- The cycles of a run that does not fail. -/
theorem does_of_run (h : c.run n = (.ok k, c')) : c.Does k c' := by
  induction n generalizing c k with
  | zero =>
    cases h
    exact .zero _
  | succ n ih =>
    rcases run_cases c with halt | ⟨awake, fault, fetch⟩ | ⟨awake, op, fetch⟩
    · rw [run_of_halted halt] at h
      cases h
      exact .zero _
    · rw [run_of_fault awake fetch] at h
      cases h
    · obtain ⟨j, rest, rfl⟩ := exists_of_run_succ awake fetch h
      rw [Nat.add_comm]
      exact .succ awake fetch (ih rest)

/-! ## 2. Bytes that nothing is stored in -/

/-- No instruction that was attempted stores at an address. -/
def Untouched (a : UInt16) (tried : List (Cpu M)) : Prop := ∀ s ∈ tried, a ∉ s.stores

/-- **Bytes that nothing is stored in**, behind any number of cycles. -/
theorem Does.read [LawfulMemory M] {a : UInt16} (h : c.Does k c')
    (untouched : Untouched a (c.attempts k)) :
    read c'.memory a = drifted a k (read c.memory a) := by
  induction h with
  | zero c => exact (drifted_zero a _).symm
  | @succ c c' op k awake fetch rest ih =>
    rw [attempts_of_fetch awake fetch] at untouched
    have here := read_perform fetch (untouched c List.mem_cons_self)
    rw [ih fun s later => untouched s (List.mem_cons_of_mem c later), here, ← drifted_succ]

/-! ## 3. Faults -/

theorem fetch_error_iff :
    c.fetch = .error fault ↔
      fault = .unknownOpcode (Memory.read c.memory c.regs.ic) c.regs.ic ∧
        Opcode.ofByte? (Memory.read c.memory c.regs.ic) = none := by
  unfold fetch
  cases decoded : Opcode.ofByte? (Memory.read c.memory c.regs.ic) with
  | some op =>
    simp only [decoded]
    exact ⟨nofun, fun h => nomatch h.2⟩
  | none =>
    simp only [decoded]
    exact ⟨fun h => ⟨(Except.error.inj h).symm, trivial⟩, fun h => congrArg Except.error h.1.symm⟩

/-- The processor `k` cycles behind another one, in front of a byte that encodes no opcode: it is
    not halted, the fault holds the byte and its place, the counter has counted the cycles and no
    more, and from every cycle on a byte that is not stored in has stayed, but for the watchdogs,
    which have moved with every cycle that was done. -/
structure FaultLeft (c : Cpu M) (k : Nat) (fault : CpuFault) (c' : Cpu M) : Prop where
  does : c.Does k c'
  awake : c'.halted = false
  place : fault = .unknownOpcode (Memory.read c'.memory c'.regs.ic) c'.regs.ic
  unmapped : Opcode.ofByte? (Memory.read c'.memory c'.regs.ic) = none
  counter : c'.cycles = c.cycles + UInt64.ofNat k
  bytes (i j : Nat) (b : Cpu M) : i + j = k → c.Does i b → ∀ a, Untouched a (b.attempts j) →
    Memory.read c'.memory a = drifted a j (Memory.read b.memory a)

theorem FaultLeft.fetch (h : c.FaultLeft k fault c') : c'.fetch = .error fault :=
  fetch_error_iff.mpr ⟨h.place, h.unmapped⟩

theorem FaultLeft.of_fetch [LawfulMemory M] (does : c.Does k c') (awake : c'.halted = false)
    (fetch : c'.fetch = .error fault) : c.FaultLeft k fault c' := by
  obtain ⟨place, unmapped⟩ := fetch_error_iff.mp fetch
  refine ⟨does, awake, place, unmapped, does.cycles, ?_⟩
  intro i j b sum first a untouched
  subst sum
  exact (first.cancel does).read untouched

/-- A cycle from there fails with the same fault and changes nothing. -/
theorem FaultLeft.clock_again (h : c.FaultLeft k fault c') : c'.clock = (.error fault, c') :=
  clock_of_fault h.fetch

/-- So does a run. -/
theorem FaultLeft.run_again (h : c.FaultLeft k fault c') (filled : 1 ≤ n) :
    c'.run n = (.error fault, c') := by
  obtain ⟨n, rfl⟩ := Nat.exists_eq_add_one.mpr filled
  exact run_of_fault h.awake h.fetch n

theorem exists_does_of_run_error (h : c.run n = (.error fault, c')) :
    ∃ k, k < n ∧ c.Does k c' ∧ c'.halted = false ∧ c'.fetch = .error fault := by
  induction n generalizing c with
  | zero => cases h
  | succ n ih =>
    rcases run_cases c with halt | ⟨awake, fault', fetch⟩ | ⟨awake, op, fetch⟩
    · rw [run_of_halted halt] at h
      cases h
    · rw [run_of_fault awake fetch] at h
      cases h
      exact ⟨0, Nat.succ_pos n, .zero _, awake, fetch⟩
    · obtain ⟨k, inside, does, behind⟩ := ih (run_of_run_succ_error awake fetch h)
      exact ⟨k + 1, Nat.succ_lt_succ inside, .succ awake fetch does, behind⟩

/-- **A run fails exactly where fewer cycles than it may do lead to a byte that encodes no
    opcode**, and it leaves the processor there. -/
theorem run_error_iff [LawfulMemory M] :
    c.run n = (.error fault, c') ↔ ∃ k, k < n ∧ c.FaultLeft k fault c' := by
  constructor
  · intro h
    obtain ⟨k, inside, does, awake, fetch⟩ := exists_does_of_run_error h
    exact ⟨k, inside, .of_fetch does awake fetch⟩
  · rintro ⟨k, inside, h⟩
    obtain ⟨rest, rfl⟩ : ∃ rest, n = k + rest := ⟨n - k, by omega⟩
    rw [h.does.run, h.run_again (by omega)]
    rfl

end Cpu
end Retro24
