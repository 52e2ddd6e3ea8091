/-
  File:      Retro24/Proofs/Listings/Tracing.lean
  Subject:   What a full journal says about the instructions that are executed.

  * `Cpu.Announces`: a report says where an instruction stands and what its registers are, and shows
    the statement that is executed, except where that stands on a watchdog.
  * `announces_remarkCycle`: the report of a cycle. The opcode is taken in front of the tick, and
    opcode and operands of the report behind it; execution takes its operands behind it, too.
  * `Cpu.remarks`: the reports of a number of cycles. A journal that follows the cycles one by one
    gets them (`toList_follow`), and so does one that watches a run (`narrationFrom_remarks`).
  * `cycles_announced`: all of it together. `ticking_announced`: an instruction on a watchdog is
    announced as another one.
-/
import Retro24.Proofs.Listings.Execution
import Retro24.Trace

namespace Retro24

open Memory (read)

/-! ## 1. The report of a cycle -/

namespace Cpu

variable {M : Type} [Memory M] {c c' : Cpu M} {op : Opcode}

/-- A report of the cycle of an opcode: the address, a statement, and the registers in front of the
    effect. Its line shows the mnemonic of the opcode except where the instruction stands on a
    watchdog; everywhere else it shows what is executed, behind the tick. -/
def Announces (c : Cpu M) (op : Opcode) (e : Entry) : Prop :=
  ∃ s, e = .executing c.regs.ic s { c.regs with opcode := op.byte } ∧
    e.level = .trace ∧
    e.text = Hex.word c.regs.ic ++ "  " ++ Entry.filled 16 s.text ++ " " ++ c.regs.dataLine ∧
    (s.text.toList.take 3 = op.mnemonic.toList ↔
      c.regs.ic ≠ tickAddress ∧ c.regs.ic ≠ tockAddress) ∧
    (c.regs.ic ≠ tickAddress → c.regs.ic ≠ tockAddress → Shows s.text op (c.tick op))

/-- The byte at IC is the same behind the tick, unless it is a watchdog: that moves by one and is
    another byte. -/
theorem read_tick_ic_iff [LawfulMemory M] (op : Opcode) (c : Cpu M) :
    read (c.tick op).memory c.regs.ic = read c.memory c.regs.ic ↔
      c.regs.ic ≠ tickAddress ∧ c.regs.ic ≠ tockAddress := by
  rw [read_tick]
  unfold drifted
  by_cases first : c.regs.ic = tickAddress
  · rw [if_pos first]
    constructor
    · intro same
      exact absurd (UInt8.add_eq_left.mp same) (by decide)
    · intro apart
      exact absurd first apart.1
  · rw [if_neg first]
    by_cases second : c.regs.ic = tockAddress
    · rw [if_pos second]
      constructor
      · intro same
        have moved := UInt8.sub_eq_iff_eq_add.mp same
        exact absurd (UInt8.left_eq_add.mp moved) (by decide)
      · intro apart
        exact absurd second apart.2
    · rw [if_neg second]
      exact ⟨fun _ => ⟨first, second⟩, fun _ => rfl⟩

/-- **The report of a cycle that is done.** -/
theorem announces_remarkCycle [LawfulMemory M] (fetch : c.fetch = .ok op) :
    c.Announces op c.remarkCycle := by
  have report : c.remarkCycle = .executing c.regs.ic
      (Statement.fetch (c.tick op).memory c.regs.ic) { c.regs with opcode := op.byte } := by
    unfold remarkCycle
    rw [fetch]
    rfl
  have code := fetch_eq_ok_iff.mp fetch
  refine ⟨_, report, ?_, ?_, ?_, ?_⟩
  · rw [report]
    rfl
  · rw [report]
    rfl
  · rw [Statement.take_text_iff, Statement.instruction?_fetch, ← read_tick_ic_iff op c]
    constructor
    · intro same
      rw [← Opcode.byte_of_ofByte? same, Opcode.byte_of_ofByte? code]
    · intro same
      rw [same, code]
  · intro first second
    have same := (read_tick_ic_iff op c).mpr ⟨first, second⟩
    refine Shows.of_fetch (c := c.tick op) ?_ fun _ _ => rfl
    show Opcode.ofByte? (read (c.tick op).memory c.regs.ic) = some op
    rw [same, code]

/-! ## 2. The reports of many cycles -/

variable {n k : Nat} {ops : List Opcode}

/-- The reports of a number of cycles in a row, each made by the processor in front of the cycle. -/
def remarks (c : Cpu M) (n : Nat) : List Entry :=
  (List.range n).map fun i => (c.clocks i).2.remarkCycle

theorem length_remarks (c : Cpu M) (n : Nat) : (c.remarks n).length = n := by
  rw [remarks, List.length_map, List.length_range]

theorem getElem?_remarks (c : Cpu M) {i : Nat} (inside : i < n) :
    (c.remarks n)[i]? = some (c.clocks i).2.remarkCycle := by
  rw [remarks, List.getElem?_map, List.getElem?_range inside, Option.map_some]

theorem remarks_succ (c : Cpu M) (n : Nat) :
    c.remarks (n + 1) = c.remarkCycle :: c.clock.2.remarks n := by
  unfold remarks
  rw [List.range_succ_eq_map, List.map_cons, List.map_map]
  rfl

/-- Cycles that all succeed: each of them finds its opcode. -/
theorem fetch_of_clocks (done : (c.clocks n).1 = ops.map .ok) {i : Nat} (inside : i < n) :
    ∃ op, ops[i]? = some op ∧ (c.clocks i).2.fetch = .ok op := by
  induction n generalizing c ops i with
  | zero => exact absurd inside (Nat.not_lt_zero i)
  | succ n ih =>
    obtain ⟨op, rest, rfl, fetch, behind⟩ := exists_of_clocks_succ done
    cases i with
    | zero => exact ⟨op, rfl, fetch⟩
    | succ i =>
      obtain ⟨op', found, later⟩ := ih behind (Nat.lt_of_succ_lt_succ inside)
      refine ⟨op', found, ?_⟩
      show (c.clock.2.clocks i).2.fetch = .ok op'
      rw [clock_of_fetch fetch, later]

/-- The cycles of a run are cycles in a row, and they all succeed. -/
theorem clocks_of_run (h : c.run n = (.ok k, c')) :
    ∃ ops : List Opcode, c.clocks k = (ops.map .ok, c') := by
  induction n generalizing c k with
  | zero =>
    cases h
    exact ⟨[], rfl⟩
  | succ n ih =>
    rcases run_cases c with halt | ⟨awake, fault, fetch⟩ | ⟨awake, op, fetch⟩
    · rw [run_of_halted halt] at h
      cases h
      exact ⟨[], rfl⟩
    · rw [run_of_fault awake fetch] at h
      cases h
    · obtain ⟨j, rest, rfl⟩ := exists_of_run_succ awake fetch h
      obtain ⟨ops, all⟩ := ih rest
      refine ⟨op :: ops, ?_⟩
      rw [Nat.add_comm]
      simp only [clocks, clock_of_fetch fetch, all]
      rfl

/-- **The narration of a run is the reports of the cycles that it does.** -/
theorem narrationFrom_remarks (done : List Entry) (c : Cpu M) (n : Nat) :
    narrationFrom done c n = done.reverse ++ c.remarks ((c.attempts n).countP runsHere) := by
  induction n generalizing done c with
  | zero => exact (List.append_nil _).symm
  | succ n ih =>
    rcases run_cases c with halt | ⟨awake, fault, fetch⟩ | ⟨awake, op, fetch⟩
    · rw [narrationFrom, if_pos halt, attempts_of_halted halt]
      exact (List.append_nil _).symm
    · have none : runsHere c = false := by
        rw [runsHere, cycle, fetch]
        rfl
      rw [attempts_of_fault awake fetch, List.countP_singleton, none]
      simp only [narrationFrom, awake, fetch, Bool.false_eq_true, if_false]
      exact (List.append_nil _).symm
    · have one : runsHere c = true := by
        rw [runsHere, cycle, fetch]
        rfl
      have report : c.remarkCycle = (c.tick op).remark := by
        unfold remarkCycle
        rw [fetch]
      rw [attempts_of_fetch awake fetch, List.countP_cons_of_pos one, remarks_succ,
        clock_of_fetch fetch, report]
      simp only [narrationFrom, awake, fetch, Bool.false_eq_true, if_false]
      refine (ih _ _).trans ?_
      rw [List.reverse_cons, List.append_assoc]
      rfl

end Cpu

/-! ## 3. Journals -/

namespace Journal

variable {M : Type} [Memory M] {j : Journal} {c c' : Cpu M} {n k : Nat}

/-- The journal of a processor that does a number of cycles one by one: each is reported, then
    done. -/
def follow (j : Journal) (c : Cpu M) : Nat → Journal
  | 0 => j
  | n + 1 => (j.note c.remarkCycle).follow c.clock.2 n

theorem toList_follow (full : j.Full) (c : Cpu M) (n : Nat) :
    (j.follow c n).toList = j.toList ++ c.remarks n := by
  induction n generalizing j c with
  | zero => exact (List.append_nil _).symm
  | succ n ih =>
    rw [follow, ih (full.note _), full.toList_note, Cpu.remarks_succ, List.append_assoc]
    rfl

theorem toList_watch (full : j.Full) (h : c.run n = (.ok k, c')) :
    (j.watch c n).toList = j.toList ++ c.remarks k := by
  rw [watch, if_pos (full.admits _), full.toList_noteAll, Cpu.narration, Cpu.narrationFrom_remarks,
    Cpu.countP_attempts h]
  rfl

end Journal

/-! ## 4. The trace -/

namespace Cpu

variable {M : Type} [Memory M] [LawfulMemory M] {c : Cpu M} {j : Journal} {n : Nat}
  {ops : List Opcode}

/-- **Cycles are announced.** A journal that admits every entry gets one entry for each of a number
    of cycles that succeed, in their order, and each entry announces its cycle. A run that does not
    fail is such cycles, and its journal gets the same entries. -/
theorem cycles_announced (full : j.Full) (done : (c.clocks n).1 = ops.map .ok) :
    (j.follow c n).toList = j.toList ++ c.remarks n ∧
    (c.remarks n).length = n ∧
    (∀ i, i < n → ∃ op e, ops[i]? = some op ∧ (c.remarks n)[i]? = some e ∧
      (c.clocks i).2.Announces op e) ∧
    ∀ budget k c', c.run budget = (.ok k, c') →
      (j.watch c budget).toList = j.toList ++ c.remarks k ∧
      ∃ ops : List Opcode, c.clocks k = (ops.map .ok, c') := by
  refine ⟨Journal.toList_follow full c n, c.length_remarks n, ?_, ?_⟩
  · intro i inside
    obtain ⟨op, found, fetch⟩ := fetch_of_clocks done inside
    exact ⟨op, _, found, c.getElem?_remarks inside, announces_remarkCycle fetch⟩
  · intro budget k c' h
    exact ⟨Journal.toList_watch full h, clocks_of_run h⟩

/-- A `MAR` in front of the watchdogs is announced with the address that it loads: $FF and $00 have
    become $00 and $FF. -/
theorem cycles_announced_overlapping :
    (((Journal.blank (some .trace)).follow overlapping 1).toList.map Entry.text) =
      ["000F  MAR $FF00        AR=0000 R0=00 R1=00 R2=00 R3=00"] := by
  have done : (overlapping.clocks 1).1 = [Opcode.mar].map .ok :=
    clocks_ok_cons_iff.mpr ⟨fetch_eq_ok_iff.mpr (by decide +kernel), rfl⟩
  have full : (Journal.blank (some .trace)).Full := rfl
  obtain ⟨kept, -, -, -⟩ := cycles_announced full done
  rw [kept]
  decide +kernel

/-- A `NUL` on the first watchdog, in memory that is zero otherwise. -/
def ticking : Cpu FlatMemory := ⟨{ Registers.powerOn with ic := tickAddress }, 0, .filled 0⟩

/-- Its cycle does nothing, and the journal says that it is a `MAR`: the tick has made $01 of $00. -/
theorem ticking_announced :
    ticking.clock.1 = .ok .nul ∧
    ((Journal.blank (some .trace)).follow ticking 1).toList.map Entry.text =
      ["0010  MAR $00FF        AR=0000 R0=00 R1=00 R2=00 R3=00"] := by
  have fetch : ticking.fetch = .ok .nul := fetch_eq_ok_iff.mpr (by decide +kernel)
  refine ⟨?_, by decide +kernel⟩
  rw [clock_of_fetch fetch]

end Cpu

end Retro24
