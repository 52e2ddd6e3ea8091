/-
  File:      Retro24/Proofs/Processor/Runs.lean
  Subject:   Runs of the processor, cycle by cycle and piece by piece.

  * `clock_of_fetch`, `clock_of_fault`: one cycle, by what it fetches.
  * `run_of_halted`, `run_of_fault`, `run_of_fetch`: the first cycle of a run, or what keeps it from
    being done. The proofs about runs are inductions over these three ways (`run_cases`).
  * `run_le`, `run_short`, `run_filled`: a run does no more cycles than it may, less only where the
    processor halts, and at least one unless it is halted.
  * `attempts`: the processor at every instruction that a run attempts; `countP_attempts`: those that
    succeed are its cycles.
  * `run_split`, `run_split_error`: a run is a shorter one and the run behind it.
-/
import Retro24.Cpu

namespace Retro24.Cpu

variable {M : Type} [Memory M] {c c' : Cpu M} {op : Opcode} {fault : CpuFault} {n k : Nat}

/-! ## 1. The first cycle -/

theorem clock_of_fetch (fetch : c.fetch = .ok op) : c.clock = (.ok op, c.perform op) := by
  rw [clock, cycle, fetch]

theorem clock_of_fault (fetch : c.fetch = .error fault) : c.clock = (.error fault, c) := by
  rw [clock, cycle, fetch]

/-- A run counts from wherever it is told to. -/
theorem runFrom_eq (c : Cpu M) (done budget : Nat) :
    c.runFrom done budget = ((c.run budget).1.map (done + ·), (c.run budget).2) := by
  induction budget generalizing c done with
  | zero => rfl
  | succ budget ih =>
    rw [run, runFrom, runFrom]
    cases c.halted with
    | true => rfl
    | false =>
      cases c.fetch with
      | error fault => rfl
      | ok op =>
        have rest := ih (c.perform op) (done + 1)
        have first := ih (c.perform op) (0 + 1)
        simp only [Bool.false_eq_true, if_false, rest, first]
        cases ((c.perform op).run budget).1 with
        | error fault => rfl
        | ok k =>
          have sum : done + 1 + k = done + (0 + 1 + k) := by omega
          simp only [Except.map, sum]

@[simp]
theorem run_zero (c : Cpu M) : c.run 0 = (.ok 0, c) := rfl

theorem run_of_halted (halt : c.halted = true) (n : Nat) : c.run n = (.ok 0, c) := by
  cases n with
  | zero => rfl
  | succ n => rw [run, runFrom, if_pos halt]

theorem run_of_fault (awake : c.halted = false) (fetch : c.fetch = .error fault) (n : Nat) :
    c.run (n + 1) = (.error fault, c) := by
  simp only [run, runFrom, awake, fetch, Bool.false_eq_true, if_false]

theorem run_of_fetch (awake : c.halted = false) (fetch : c.fetch = .ok op) (n : Nat) :
    c.run (n + 1) = (((c.perform op).run n).1.map (1 + ·), ((c.perform op).run n).2) := by
  rw [← runFrom_eq]
  simp only [run, runFrom, awake, fetch, Bool.false_eq_true, if_false, Nat.zero_add]

/-- **What a processor comes to first**: it is halted, it finds no opcode, or it does a cycle. -/
theorem run_cases (c : Cpu M) :
    c.halted = true ∨ (c.halted = false ∧ ∃ fault, c.fetch = .error fault) ∨
      (c.halted = false ∧ ∃ op, c.fetch = .ok op) := by
  cases halt : c.halted with
  | true => exact .inl rfl
  | false =>
    cases fetch : c.fetch with
    | error fault => exact .inr (.inl ⟨rfl, fault, rfl⟩)
    | ok op => exact .inr (.inr ⟨rfl, op, rfl⟩)

/-- A cycle that is done is counted in front of the run behind it. -/
theorem exists_of_run_succ (awake : c.halted = false) (fetch : c.fetch = .ok op)
    (h : c.run (n + 1) = (.ok k, c')) :
    ∃ j, (c.perform op).run n = (.ok j, c') ∧ k = 1 + j := by
  rw [run_of_fetch awake fetch] at h
  rcases rest : (c.perform op).run n with ⟨(fault | j), behind⟩
  · rw [rest] at h
    cases h
  · rw [rest] at h
    cases h
    exact ⟨j, rfl, rfl⟩

/-- A run that fails behind its first cycle fails in the run behind it. -/
theorem run_of_run_succ_error (awake : c.halted = false) (fetch : c.fetch = .ok op)
    (h : c.run (n + 1) = (.error fault, c')) : (c.perform op).run n = (.error fault, c') := by
  rw [run_of_fetch awake fetch] at h
  rcases rest : (c.perform op).run n with ⟨(fault' | j), behind⟩
  · rw [rest] at h
    cases h
    rfl
  · rw [rest] at h
    cases h

/-! ## 2. The number of cycles -/

theorem run_le (h : c.run n = (.ok k, c')) : k ≤ n := by
  induction n generalizing c k with
  | zero =>
    cases h
    exact Nat.le_refl 0
  | succ n ih =>
    rcases run_cases c with halt | ⟨awake, fault, fetch⟩ | ⟨awake, op, fetch⟩
    · rw [run_of_halted halt] at h
      cases h
      exact Nat.zero_le _
    · rw [run_of_fault awake fetch] at h
      cases h
    · obtain ⟨j, rest, rfl⟩ := exists_of_run_succ awake fetch h
      have bound := ih rest
      omega

/-- A run does fewer cycles than it may only where the processor halts. -/
theorem run_short (h : c.run n = (.ok k, c')) (short : k < n) : c'.halted = true := by
  induction n generalizing c k with
  | zero => exact absurd short (Nat.not_lt_zero k)
  | succ n ih =>
    rcases run_cases c with halt | ⟨awake, fault, fetch⟩ | ⟨awake, op, fetch⟩
    · rw [run_of_halted halt] at h
      cases h
      exact halt
    · rw [run_of_fault awake fetch] at h
      cases h
    · obtain ⟨j, rest, rfl⟩ := exists_of_run_succ awake fetch h
      exact ih rest (by omega)

theorem run_filled (awake : c.halted = false) (filled : 0 < n) (h : c.run n = (.ok k, c')) :
    0 < k := by
  obtain ⟨n, rfl⟩ := Nat.exists_eq_add_one.mpr filled
  cases fetch : c.fetch with
  | error fault =>
    rw [run_of_fault awake fetch] at h
    cases h
  | ok op =>
    obtain ⟨j, -, rfl⟩ := exists_of_run_succ awake fetch h
    omega

/-- A run that does no cycle leaves the processor as it was. -/
theorem eq_of_run_zero (h : c.run n = (.ok 0, c')) : c' = c := by
  cases n with
  | zero =>
    cases h
    rfl
  | succ n =>
    rcases run_cases c with halt | ⟨awake, fault, fetch⟩ | ⟨awake, op, fetch⟩
    · rw [run_of_halted halt] at h
      cases h
      rfl
    · rw [run_of_fault awake fetch] at h
      cases h
    · obtain ⟨j, -, sum⟩ := exists_of_run_succ awake fetch h
      omega

/-! ## 3. Attempts -/

/-- The processor at every instruction that a run attempts, also at one that finds no opcode. -/
def attempts (c : Cpu M) : Nat → List (Cpu M)
  | 0 => []
  | budget + 1 =>
    if c.halted then []
    else
      c ::
        match c.fetch with
        | .ok op => (c.perform op).attempts budget
        | .error _ => []

@[simp]
theorem attempts_zero (c : Cpu M) : c.attempts 0 = [] := rfl

theorem attempts_of_halted (halt : c.halted = true) (n : Nat) : c.attempts n = [] := by
  cases n with
  | zero => rfl
  | succ n => rw [attempts, if_pos halt]

theorem attempts_of_fault (awake : c.halted = false) (fetch : c.fetch = .error fault) (n : Nat) :
    c.attempts (n + 1) = [c] := by
  simp only [attempts, awake, fetch, Bool.false_eq_true, if_false]

theorem attempts_of_fetch (awake : c.halted = false) (fetch : c.fetch = .ok op) (n : Nat) :
    c.attempts (n + 1) = c :: (c.perform op).attempts n := by
  simp only [attempts, awake, fetch, Bool.false_eq_true, if_false]

/-- A run attempts at most as many instructions as it may do cycles. -/
theorem length_attempts_le (c : Cpu M) (n : Nat) : (c.attempts n).length ≤ n := by
  induction n generalizing c with
  | zero => exact Nat.le_refl 0
  | succ n ih =>
    rcases run_cases c with halt | ⟨awake, fault, fetch⟩ | ⟨awake, op, fetch⟩
    · rw [attempts_of_halted halt]
      exact Nat.zero_le _
    · rw [attempts_of_fault awake fetch]
      exact Nat.succ_le_succ (Nat.zero_le n)
    · rw [attempts_of_fetch awake fetch]
      exact Nat.succ_le_succ (ih _)

/-- Whether a cycle at this point is done. -/
def runsHere (c : Cpu M) : Bool := c.cycle.isOk

/-- **The cycles of a run are the attempts that succeed.** -/
theorem countP_attempts (h : c.run n = (.ok k, c')) : (c.attempts n).countP runsHere = k := by
  induction n generalizing c k with
  | zero =>
    cases h
    rfl
  | succ n ih =>
    rcases run_cases c with halt | ⟨awake, fault, fetch⟩ | ⟨awake, op, fetch⟩
    · rw [run_of_halted halt] at h
      cases h
      rw [attempts_of_halted halt]
      rfl
    · rw [run_of_fault awake fetch] at h
      cases h
    · obtain ⟨j, rest, rfl⟩ := exists_of_run_succ awake fetch h
      have here : runsHere c = true := by
        rw [runsHere, cycle, fetch]
        rfl
      rw [attempts_of_fetch awake fetch, List.countP_cons_of_pos here, ih rest, Nat.add_comm]

/-! ## 4. Runs in two pieces -/

/-- **A run that succeeds is followed by another one.** It does not matter what the first one leaves
    of its cycles, since it leaves some only to a processor that is halted. -/
theorem run_split {first total : Nat} (h : c.run first = (.ok k, c')) (inside : first ≤ total) :
    c.run total = ((c'.run (total - k)).1.map (k + ·), (c'.run (total - k)).2) ∧
      c.attempts total = c.attempts first ++ c'.attempts (total - k) := by
  induction first generalizing c k total with
  | zero =>
    cases h
    rw [Nat.sub_zero, ← runFrom_eq]
    exact ⟨rfl, rfl⟩
  | succ first ih =>
    obtain ⟨total, rfl⟩ : ∃ t, total = t + 1 := Nat.exists_eq_add_one.mpr (by omega)
    rcases run_cases c with halt | ⟨awake, fault, fetch⟩ | ⟨awake, op, fetch⟩
    · rw [run_of_halted halt] at h
      cases h
      simp only [run_of_halted halt, attempts_of_halted halt]
      exact ⟨rfl, rfl⟩
    · rw [run_of_fault awake fetch] at h
      cases h
    · obtain ⟨j, rest, rfl⟩ := exists_of_run_succ awake fetch h
      obtain ⟨run, attempts⟩ := ih rest (Nat.le_of_succ_le_succ inside)
      have left : total + 1 - (1 + j) = total - j := by omega
      rw [run_of_fetch awake fetch, attempts_of_fetch awake fetch, attempts_of_fetch awake fetch,
        run, attempts, left]
      refine ⟨?_, rfl⟩
      cases (c'.run (total - j)).1 with
      | error fault => rfl
      | ok i => simp only [Except.map, Nat.add_assoc]

/-- Cycles that it leaves are not done behind it either. -/
theorem run_rest (h : c.run n = (.ok k, c')) (j : Nat) : c'.run (n + j - k) = c'.run j := by
  rcases Nat.lt_or_eq_of_le (run_le h) with short | rfl
  · have halt := run_short h short
    rw [run_of_halted halt, run_of_halted halt]
  · rw [Nat.add_sub_cancel_left]

/-- A run that fails is not followed by anything. -/
theorem run_split_error {first total : Nat} (h : c.run first = (.error fault, c'))
    (inside : first ≤ total) :
    c.run total = (.error fault, c') ∧ c.attempts total = c.attempts first := by
  induction first generalizing c total with
  | zero => cases h
  | succ first ih =>
    obtain ⟨total, rfl⟩ : ∃ t, total = t + 1 := Nat.exists_eq_add_one.mpr (by omega)
    rcases run_cases c with halt | ⟨awake, fault', fetch⟩ | ⟨awake, op, fetch⟩
    · rw [run_of_halted halt] at h
      cases h
    · rw [run_of_fault awake fetch] at h ⊢
      exact ⟨h, by rw [attempts_of_fault awake fetch, attempts_of_fault awake fetch]⟩
    · have rest := run_of_run_succ_error awake fetch h
      obtain ⟨run, attempts⟩ := ih rest (Nat.le_of_succ_le_succ inside)
      rw [run_of_fetch awake fetch, attempts_of_fetch awake fetch, attempts_of_fetch awake fetch,
        run, attempts]
      exact ⟨rfl, rfl⟩

end Retro24.Cpu
