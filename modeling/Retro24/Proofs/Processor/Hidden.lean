/-
  File:      Retro24/Proofs/Processor/Hidden.lean
  Subject:   A byte that no instruction reads makes no difference.

  * `Cpu.reads`: the addresses at which an instruction reads its opcode, its operands and its data.
  * `Cpu.SameBut`: two processors that differ in the byte at one address at most. `SameBut.tick` and
    `SameBut.execute`: neither the watchdogs nor an effect carry that byte further, unless the
    instruction reads it.
  * `SameBut.run`: the same of whole runs, with the same count or fault; and both attempt the same
    instructions, so that it is enough to look at what one of them reads.
-/
import Retro24.Proofs.Processor.Runs

namespace Retro24

/-! ## 1. What an instruction reads -/

namespace Opcode

/-- Where the operands of an opcode stand that stands at `ic`. -/
def operandAddresses (op : Opcode) (ic : UInt16) : List UInt16 :=
  match op.operands with
  | .none => []
  | .value => [ic + 1]
  | .pair | .address => [ic + 1, ic + 2]

/-- Where an opcode reads data when AR is `ar`. -/
def dataAddresses (op : Opcode) (ar : UInt16) : List UInt16 :=
  match op with
  | .lr0 => [ar]
  | .lrw => [ar, ar + 1]
  | _ => []

end Opcode

namespace Cpu

open Memory (read write)

variable {M N : Type} [Memory M] [Memory N] {c : Cpu M} {d : Cpu N} {a : UInt16}

/-- The addresses at which the instruction at IC reads: its opcode, and its operands and data if it
    has an opcode. -/
def reads (c : Cpu M) : List UInt16 :=
  c.regs.ic ::
    match c.fetch with
    | .ok op => op.operandAddresses c.regs.ic ++ op.dataAddresses c.regs.ar
    | .error _ => []

/-- No instruction that was attempted reads at an address. -/
def Ignore (a : UInt16) (tried : List (Cpu M)) : Prop := ∀ s ∈ tried, a ∉ s.reads

theorem Ignore.left {first rest : List (Cpu M)} (h : Ignore a (first ++ rest)) : Ignore a first :=
  fun s inside => h s (List.mem_append_left rest inside)

theorem Ignore.right {first rest : List (Cpu M)} (h : Ignore a (first ++ rest)) : Ignore a rest :=
  fun s inside => h s (List.mem_append_right first inside)

theorem Ignore.append {first rest : List (Cpu M)} (h : Ignore a first) (h' : Ignore a rest) :
    Ignore a (first ++ rest) := by
  intro s inside
  rcases List.mem_append.mp inside with early | late
  · exact h s early
  · exact h' s late

/-- What a run ignores, a shorter one ignores. -/
theorem Ignore.part {first total : Nat} (inside : first ≤ total)
    (h : Ignore a (c.attempts total)) : Ignore a (c.attempts first) := by
  rcases run : c.run first with ⟨(fault | k), behind⟩
  · rw [(run_split_error run inside).2] at h
    exact h
  · rw [(run_split run inside).2] at h
    exact h.left

/-! ## 2. Processors that differ in one byte -/

/-- Two memories with the same bytes at all addresses but one. -/
def AgreeBut (a : UInt16) (m : M) (n : N) : Prop := ∀ b, b ≠ a → read m b = read n b

/-- Two processors that differ in the byte at one address at most. -/
structure SameBut (a : UInt16) (c : Cpu M) (d : Cpu N) : Prop where
  regs : c.regs = d.regs
  cycles : c.cycles = d.cycles
  bytes : AgreeBut a c.memory d.memory

theorem SameBut.refl (a : UInt16) (c : Cpu M) : SameBut a c c := ⟨rfl, rfl, fun _ _ => rfl⟩

theorem SameBut.symm (h : SameBut a c d) : SameBut a d c :=
  ⟨h.regs.symm, h.cycles.symm, fun b other => (h.bytes b other).symm⟩

theorem SameBut.trans {L : Type} [Memory L] {b : Cpu L} (h : SameBut a b c) (h' : SameBut a c d) :
    SameBut a b d :=
  ⟨h.regs.trans h'.regs, h.cycles.trans h'.cycles,
    fun place other => (h.bytes place other).trans (h'.bytes place other)⟩

theorem SameBut.halted (h : SameBut a c d) : c.halted = d.halted := congrArg Registers.halted h.regs

theorem SameBut.fetch (h : SameBut a c d) (code : c.regs.ic ≠ a) : c.fetch = d.fetch := by
  have byte : read c.memory c.regs.ic = read d.memory d.regs.ic := by
    rw [← h.regs]
    exact h.bytes _ code
  simp only [Cpu.fetch]
  rw [byte, h.regs]

/-- The same instruction reads at the same addresses. -/
theorem SameBut.reads_eq (h : SameBut a c d) (code : c.regs.ic ≠ a) : c.reads = d.reads := by
  unfold reads
  rw [h.fetch code, h.regs]

theorem SameBut.operand (h : SameBut a c d) {n : UInt16} (other : c.regs.ic + n ≠ a) :
    c.operand n = d.operand n := by
  unfold Cpu.operand
  rw [← h.regs]
  exact h.bytes _ other

theorem SameBut.advance (h : SameBut a c d) (n : UInt16) :
    SameBut a (c.advance n) (d.advance n) :=
  ⟨congrArg (fun r : Registers => { r with ic := r.ic + n }) h.regs, h.cycles, h.bytes⟩

theorem SameBut.withRegs (h : SameBut a c d) {f g : Registers → Registers}
    (same : f c.regs = g d.regs) : SameBut a (c.withRegs f) (d.withRegs g) :=
  ⟨same, h.cycles, h.bytes⟩

theorem SameBut.withMemory (h : SameBut a c d) {m : M} {n : N} (bytes : AgreeBut a m n) :
    SameBut a ({ c with memory := m } : Cpu M) ({ d with memory := n } : Cpu N) :=
  ⟨h.regs, h.cycles, bytes⟩

theorem SameBut.branch (h : SameBut a c d) {left right : Bool} (same : left = right)
    (n : UInt16) : SameBut a (c.branch left n) (d.branch right n) := by
  subst same
  cases left with
  | true => exact ⟨congrArg (fun r : Registers => { r with ic := r.ar }) h.regs, h.cycles, h.bytes⟩
  | false => exact h.advance n

/-! ## 3. Writing -/

variable [LawfulMemory M] [LawfulMemory N]

/-- Bytes written to the same address may differ only at the address left out. -/
theorem AgreeBut.write {m : M} {n : N} (h : AgreeBut a m n) {place : UInt16} {v w : UInt8}
    (same : place ≠ a → v = w) : AgreeBut a (write m place v) (write n place w) := by
  intro b other
  rw [Memory.read_write, Memory.read_write]
  by_cases here : b = place
  · rw [if_pos here, if_pos here]
    exact same fun e => other (here.trans e)
  · rw [if_neg here, if_neg here]
    exact h b other

theorem AgreeBut.writeWord {m : M} {n : N} (h : AgreeBut a m n) (place : UInt16)
    (low high : UInt8) :
    AgreeBut a (Memory.writeWord m place low high) (Memory.writeWord n place low high) :=
  (h.write fun _ => rfl).write fun _ => rfl

/-- The watchdogs read and write their own two bytes only. -/
theorem AgreeBut.moveWatchdogs {m : M} {n : N} (h : AgreeBut a m n) :
    AgreeBut a (Cpu.moveWatchdogs m) (Cpu.moveWatchdogs n) := by
  have ticked : AgreeBut a (Memory.write m tickAddress (read m tickAddress + 1))
      (Memory.write n tickAddress (read n tickAddress + 1)) :=
    h.write fun other => congrArg (· + 1) (h _ other)
  exact ticked.write fun other => congrArg (· - 1) (ticked _ other)

theorem SameBut.tick (h : SameBut a c d) (op : Opcode) : SameBut a (c.tick op) (d.tick op) :=
  ⟨congrArg (fun r : Registers => { r with opcode := op.byte }) h.regs, h.cycles,
    h.bytes.moveWatchdogs⟩

/-! ## 4. One instruction -/

/-- **An effect does not carry a byte further that it does not read.** -/
theorem SameBut.execute (h : SameBut a c d) {op : Opcode}
    (operands : a ∉ op.operandAddresses c.regs.ic) (data : a ∉ op.dataAddresses c.regs.ar) :
    SameBut a (c.execute op) (d.execute op) := by
  have regs := h.regs
  cases op
  case nul => exact h.advance 1
  -- registers only
  case rar | aar | ir0 | a01 | dr0 | s01 | x12 | x01 | taw | c01 | c02 | irw | drw | x03 | c03
      | c30 | pl0 | pr0 | hlt =>
    exact (h.withRegs (congrArg _ regs)).advance 1
  case jmp => exact h.branch rfl 1
  case jz0 => exact h.branch (congrArg (fun r : Registers => r.r0 == 0) regs) 1
  case jgw => exact h.branch (congrArg (fun r : Registers => decide (r.r2 < r.r1)) regs) 1
  case jew => exact h.branch (congrArg (fun r : Registers => r.r1 == r.r2) regs) 1
  -- one operand
  case mr0 | or0 | an0 =>
    have byte := h.operand (n := 1) fun same => operands (List.mem_singleton.mpr same.symm)
    refine (h.withRegs ?_).advance 2
    rw [byte, regs]
  case je0 =>
    have byte := h.operand (n := 1) fun same => operands (List.mem_singleton.mpr same.symm)
    refine h.branch ?_ 2
    rw [byte, regs]
  -- two operands
  case mar | mrw =>
    have first := h.operand (n := 1) fun same => operands (same ▸ List.mem_cons_self)
    have second := h.operand (n := 2) fun same =>
      operands (same ▸ List.mem_cons_of_mem _ (List.mem_singleton.mpr rfl))
    refine (h.withRegs ?_).advance 3
    rw [first, second, regs]
  -- data
  case lr0 =>
    have byte := h.bytes c.regs.ar fun same => data (same ▸ List.mem_cons_self)
    refine (h.withRegs ?_).advance 1
    rw [byte, regs]
  case lrw =>
    have first := h.bytes c.regs.ar fun same => data (same ▸ List.mem_cons_self)
    have second := h.bytes (c.regs.ar + 1) fun same =>
      data (same ▸ List.mem_cons_of_mem _ (List.mem_singleton.mpr rfl))
    refine (h.withRegs ?_).advance 1
    rw [first, second, regs]
  -- what is written comes from the registers
  case sic | srw =>
    refine (h.withMemory ?_).advance 1
    rw [regs]
    exact h.bytes.writeWord _ _ _
  case sr0 =>
    refine (h.withMemory ?_).advance 1
    rw [regs]
    exact h.bytes.write fun _ => rfl

theorem SameBut.perform (h : SameBut a c d) {op : Opcode} (fetch : c.fetch = .ok op)
    (avoid : a ∉ c.reads) : SameBut a (c.perform op) (d.perform op) := by
  have rest : a ∉ op.operandAddresses c.regs.ic ++ op.dataAddresses c.regs.ar := by
    intro inside
    refine avoid (List.mem_cons_of_mem _ ?_)
    rw [fetch]
    exact inside
  rw [List.mem_append, not_or] at rest
  have done : SameBut a ((c.tick op).execute op) ((d.tick op).execute op) :=
    (h.tick op).execute rest.1 rest.2
  exact ⟨done.regs, congrArg (· + 1) done.cycles, done.bytes⟩

/-! ## 5. Runs -/

/-- **A byte that a run does not read makes no difference to it.** -/
theorem SameBut.run (h : SameBut a c d) {n : Nat} (blind : Ignore a (c.attempts n)) :
    (c.run n).1 = (d.run n).1 ∧ SameBut a (c.run n).2 (d.run n).2 ∧
      Ignore a (d.attempts n) := by
  -- the other run ignores the byte because it reads, instruction by instruction, at the same places
  induction n generalizing c d with
  | zero => exact ⟨rfl, h, nofun⟩
  | succ n ih =>
    rcases run_cases c with halt | ⟨awake, fault, fetch⟩ | ⟨awake, op, fetch⟩
    · have halt' := h.halted.symm.trans halt
      rw [run_of_halted halt, run_of_halted halt', attempts_of_halted halt']
      exact ⟨rfl, h, nofun⟩
    · rw [attempts_of_fault awake fetch] at blind
      have avoid : a ∉ c.reads := blind c List.mem_cons_self
      have code : c.regs.ic ≠ a := fun same => avoid (same ▸ List.mem_cons_self)
      have awake' := h.halted.symm.trans awake
      have fetch' := (h.fetch code).symm.trans fetch
      rw [run_of_fault awake fetch, run_of_fault awake' fetch', attempts_of_fault awake' fetch']
      refine ⟨rfl, h, fun s inside => ?_⟩
      rw [List.mem_singleton.mp inside, ← h.reads_eq code]
      exact avoid
    · rw [attempts_of_fetch awake fetch] at blind
      have avoid : a ∉ c.reads := blind c List.mem_cons_self
      have code : c.regs.ic ≠ a := fun same => avoid (same ▸ List.mem_cons_self)
      have awake' := h.halted.symm.trans awake
      have fetch' := (h.fetch code).symm.trans fetch
      obtain ⟨result, behind, others⟩ :=
        ih (h.perform fetch avoid) fun s inside => blind s (List.mem_cons_of_mem _ inside)
      rw [run_of_fetch awake fetch, run_of_fetch awake' fetch', attempts_of_fetch awake' fetch',
        result]
      refine ⟨rfl, behind, fun s inside => ?_⟩
      rcases List.mem_cons.mp inside with here | later
      · rw [here, ← h.reads_eq code]
        exact avoid
      · exact others s later

/-- It is enough that one of two runs does not read the byte. -/
theorem SameBut.run_either (h : SameBut a c d) {n : Nat}
    (blind : Ignore a (c.attempts n) ∨ Ignore a (d.attempts n)) :
    (c.run n).1 = (d.run n).1 ∧ SameBut a (c.run n).2 (d.run n).2 ∧
      Ignore a (c.attempts n) ∧ Ignore a (d.attempts n) := by
  rcases blind with blind | blind
  · obtain ⟨result, behind, blind'⟩ := h.run blind
    exact ⟨result, behind, blind, blind'⟩
  · obtain ⟨result, behind, blind'⟩ := h.symm.run blind
    exact ⟨result.symm, behind.symm, blind', blind⟩

end Cpu

end Retro24
