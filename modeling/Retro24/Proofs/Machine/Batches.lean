/-
  File:      Retro24/Proofs/Machine/Batches.lean
  Subject:   The cycles of a batch.

  * `stepsFrom_done`: the count of a batch does not wrap; `runBatch_le`: a batch has at most the
    cycles that are asked for.
  * `runBatch_error`: a batch fails where the processor finds no opcode, and only there.
  * `runBatch_fault`: there it changes nothing.
  * `runBatch_works`: a batch that is asked for a cycle does one or fails, unless the processor is
    halted.
  * `Console.runBatch_result`, `Console.runBatch_machine`: the same batch on a console.
-/
import Retro24.Console
import Retro24.Proofs.Machine.Invariant

namespace Retro24

namespace Machine

variable {m m' : Machine} {done total cycles : UInt32} {report : BatchReport} {e : MachineError}

theorem stepsFrom_done {limit : Nat} (h : m.stepsFrom done limit = (.ok total, m'))
    (room : done.toNat + limit < 0x100000000) :
    done.toNat ≤ total.toNat ∧ total.toNat ≤ done.toNat + limit := by
  induction limit generalizing m done with
  | zero =>
    cases h
    omega
  | succ limit ih =>
    have raised : (done + 1).toNat = done.toNat + 1 := by
      rw [UInt32.toNat_add, UInt32.toNat_one, Nat.mod_eq_of_lt (by omega)]
    rw [stepsFrom_succ] at h
    rcases ran : m.step.1 with e | (_ | _)
    · rw [ran] at h
      cases h
    · rw [ran] at h
      cases h
      omega
    · rw [ran] at h
      have rest := ih h (by omega)
      omega

theorem step_error (h : m.step.1 = .error e) : ∃ fault, e = .cpu fault := by
  unfold step at h
  split at h
  · cases h
  · cases fetched : m.cpu.fetch with
    | ok op =>
      rw [fetched] at h
      cases h
    | error fault =>
      rw [fetched] at h
      cases h
      exact ⟨fault, rfl⟩

/-- A processor that is not halted does its cycle or finds no opcode. -/
theorem step_awake (awake : m.halted = false) :
    m.step.1 = .ok true ∨ ∃ fault, m.step.1 = .error (.cpu fault) := by
  unfold step
  rw [awake]
  cases m.cpu.fetch with
  | ok op => exact .inl rfl
  | error fault => exact .inr ⟨fault, rfl⟩

/-- Where it finds none, nothing changes. -/
theorem step_of_fault {fault : CpuFault} (awake : m.halted = false)
    (fetch : m.cpu.fetch = .error fault) : m.step = (.error (.cpu fault), m) := by
  unfold step
  rw [awake, fetch]
  rfl

theorem stepsFrom_error {limit : Nat} (h : (m.stepsFrom done limit).1 = .error e) :
    ∃ fault, e = .cpu fault := by
  induction limit generalizing m done with
  | zero => cases h
  | succ limit ih =>
    rw [stepsFrom_succ] at h
    rcases ran : m.step.1 with e' | (_ | _)
    · rw [ran] at h
      cases h
      exact step_error ran
    · rw [ran] at h
      cases h
    · rw [ran] at h
      exact ih h

/-- What succeeds is a report of the cycles done. -/
theorem runBatch_ok (h : (m.runBatch cycles).1 = .ok report) :
    ∃ behind, m.stepsFrom 0 cycles.toNat = (.ok report.cycles, behind) := by
  rw [runBatch_eq] at h
  rcases ran : m.stepsFrom 0 cycles.toNat with ⟨(e | done), behind⟩
  · rw [ran] at h
    cases h
  · rw [ran] at h
    cases h
    exact ⟨behind, rfl⟩

theorem runBatch_le (h : (m.runBatch cycles).1 = .ok report) : report.cycles ≤ cycles := by
  obtain ⟨behind, ran⟩ := runBatch_ok h
  have room : (0 : UInt32).toNat + cycles.toNat < 0x100000000 := by
    rw [UInt32.toNat_zero, Nat.zero_add]
    exact cycles.toNat_lt
  have bound := (stepsFrom_done ran room).2
  rw [UInt32.le_iff_toNat_le]
  rwa [UInt32.toNat_zero, Nat.zero_add] at bound

/-- A batch fails only where the processor finds no opcode. -/
theorem runBatch_error (h : (m.runBatch cycles).1 = .error e) : ∃ fault, e = .cpu fault := by
  rw [runBatch_eq] at h
  rcases ran : (m.stepsFrom 0 cycles.toNat).1 with e' | done
  · rw [ran] at h
    cases h
    exact stepsFrom_error ran
  · rw [ran] at h
    cases h

/-- A batch that is asked for a cycle does one or fails, unless the processor is halted. -/
theorem runBatch_works (awake : m.halted = false) (filled : 1 ≤ cycles) :
    (∃ fault, (m.runBatch cycles).1 = .error (.cpu fault)) ∨
      ∃ report, (m.runBatch cycles).1 = .ok report ∧ 1 ≤ report.cycles := by
  rcases ran : (m.runBatch cycles).1 with e | report
  · obtain ⟨fault, rfl⟩ := runBatch_error ran
    exact .inl ⟨fault, rfl⟩
  · obtain ⟨behind, steps⟩ := runBatch_ok ran
    obtain ⟨limit, size⟩ : ∃ limit, cycles.toNat = limit + 1 :=
      Nat.exists_eq_add_one.mpr (UInt32.le_iff_toNat_le.mp filled)
    have room := cycles.toNat_lt
    rw [size, stepsFrom_succ] at steps
    rcases step_awake awake with first | ⟨fault, first⟩
    · rw [first] at steps
      have more := (stepsFrom_done steps (by show 1 + limit < 0x100000000; omega)).1
      exact .inr ⟨report, rfl, UInt32.le_iff_toNat_le.mpr more⟩
    · rw [first] at steps
      cases steps

/-- A batch that begins where there is no opcode fails and changes nothing. -/
theorem runBatch_fault {fault : CpuFault} (awake : m.halted = false)
    (fetch : m.cpu.fetch = .error fault) (filled : 1 ≤ cycles) :
    m.runBatch cycles = (.error (.cpu fault), m) := by
  obtain ⟨limit, size⟩ : ∃ limit, cycles.toNat = limit + 1 :=
    Nat.exists_eq_add_one.mpr (UInt32.le_iff_toNat_le.mp filled)
  simp only [runBatch_eq, size, stepsFrom_succ, step_of_fault awake fetch]

end Machine

namespace Console

theorem runBatch_result (c : Console) (cycles : UInt32) :
    (c.runBatch cycles).1 = (c.machine.runBatch cycles).1 := by
  rcases c with ⟨machine, journal⟩
  rw [runBatch]
  rcases machine.runBatch cycles with ⟨(e | report), behind⟩ <;> rfl

theorem runBatch_machine (c : Console) (cycles : UInt32) :
    (c.runBatch cycles).2.machine = (c.machine.runBatch cycles).2 := by
  rcases c with ⟨machine, journal⟩
  rw [runBatch]
  rcases machine.runBatch cycles with ⟨(e | report), behind⟩ <;> rfl

end Console
end Retro24
