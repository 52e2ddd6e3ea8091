/-
  File:      Retro24/Proofs/Processor/Stores.lean
  Subject:   What one instruction makes of every byte of memory.

  * `Opcode.writes`: the bytes that an opcode stores, with their addresses. `memory_execute_eq`: an
    effect writes these to memory and nothing else.
  * `drifted`: a byte behind cycles in which nothing is stored in it. The watchdogs move by one with
    each of them, and no other byte does.
  * `Cpu.stores`: the addresses at which the instruction at IC stores; `Cpu.storedAt?`: the byte that it
    leaves at one of them.
  * `read_perform_eq`: a byte behind one cycle.
-/
import Retro24.Proofs.Processor.Runs

namespace Retro24

open Memory (read write)

/-! ## 1. Writing to memory -/

/-- Where an opcode stores when AR is `ar`. -/
def Opcode.storeAddresses (op : Opcode) (ar : UInt16) : List UInt16 :=
  match op with
  | .sr0 => [ar]
  | .sic | .srw => [ar, ar + 1]
  | _ => []

/-- The bytes that an opcode stores, each with its address, in the order in which it writes them. -/
def Opcode.writes (op : Opcode) (r : Registers) : List (UInt16 × UInt8) :=
  match op with
  | .sr0 => [(r.ar, r.r0)]
  | .sic => [(r.ar, Word.low r.ic), (r.ar + 1, Word.high r.ic)]
  | .srw => [(r.ar, r.r1), (r.ar + 1, r.r2)]
  | _ => []

theorem Opcode.map_fst_writes (op : Opcode) (r : Registers) :
    (op.writes r).map Prod.fst = op.storeAddresses r.ar := by
  cases op <;> rfl

/-- The opcode that was noted last is never stored. -/
theorem Opcode.writes_noted (op : Opcode) (r : Registers) (byte : UInt8) :
    op.writes { r with opcode := byte } = op.writes r := by
  cases op <;> rfl

/-- Memory with bytes written one after another. -/
def Memory.writeAll {M : Type} [Memory M] (m : M) (ws : List (UInt16 × UInt8)) : M :=
  ws.foldl (fun m w => write m w.1 w.2) m

/-- The byte that was written last is read, and where none was the byte from before. -/
theorem Memory.read_writeAll {M : Type} [Memory M] [LawfulMemory M] (m : M)
    (ws : List (UInt16 × UInt8)) (a : UInt16) :
    read (writeAll m ws) a = (ws.reverse.lookup a).getD (read m a) := by
  induction ws generalizing m with
  | nil => rfl
  | cons w ws ih =>
    have behind : read (writeAll m (w :: ws)) a = _ := ih (write m w.1 w.2)
    rw [behind, List.reverse_cons, List.lookup_append, Option.getD_or, read_write]
    congr 1
    by_cases here : a = w.1
    · rw [if_pos here, List.lookup_cons, beq_iff_eq.mpr here]
      rfl
    · rw [if_neg here, List.lookup_cons, beq_eq_false_iff_ne.mpr here]
      rfl

/-! ## 2. The watchdogs -/

/-- A byte behind `k` cycles in which nothing is stored in it: the watchdogs have moved by one with
    each of them, one up and one down, and any other byte has stayed. -/
def drifted (a : UInt16) (k : Nat) (v : UInt8) : UInt8 :=
  if a = tickAddress then v + UInt8.ofNat k
  else if a = tockAddress then v - UInt8.ofNat k
  else v

theorem drifted_zero (a : UInt16) (v : UInt8) : drifted a 0 v = v := by
  unfold drifted
  split
  · exact UInt8.add_zero v
  · split
    · exact UInt8.sub_zero v
    · rfl

theorem drifted_succ (a : UInt16) (k : Nat) (v : UInt8) :
    drifted a (k + 1) v = drifted a k (drifted a 1 v) := by
  unfold drifted
  rw [UInt8.ofNat_add]
  by_cases tick : a = tickAddress
  · simp only [if_pos tick]
    grind
  · by_cases tock : a = tockAddress
    · simp only [if_neg tick, if_pos tock]
      grind
    · simp only [if_neg tick, if_neg tock]

theorem drifted_add (a : UInt16) (j k : Nat) (v : UInt8) :
    drifted a (j + k) v = drifted a k (drifted a j v) := by
  induction j generalizing v with
  | zero => rw [Nat.zero_add, drifted_zero]
  | succ j ih => rw [Nat.add_right_comm, drifted_succ, ih, ← drifted_succ]

theorem drifted_tick (k : Nat) (v : UInt8) : drifted tickAddress k v = v + UInt8.ofNat k :=
  if_pos rfl

theorem drifted_tock (k : Nat) (v : UInt8) : drifted tockAddress k v = v - UInt8.ofNat k :=
  (if_neg (by decide)).trans (if_pos rfl)

theorem drifted_of_ne {a : UInt16} (tick : a ≠ tickAddress) (tock : a ≠ tockAddress) (k : Nat)
    (v : UInt8) : drifted a k v = v :=
  (if_neg tick).trans (if_neg tock)

/-! ## 3. One cycle -/

namespace Cpu

theorem branch_memory {M : Type} (c : Cpu M) (condition : Bool) (n : UInt16) :
    (c.branch condition n).memory = c.memory := by
  cases condition <;> rfl

variable {M : Type} [Memory M] {c : Cpu M} {op : Opcode} {a : UInt16}

/-- **An effect writes the bytes of its opcode to memory, and nothing else.** -/
theorem memory_execute_eq (op : Opcode) (c : Cpu M) :
    (c.execute op).memory = Memory.writeAll c.memory (op.writes c.regs) := by
  cases op
  case jz0 | jgw | jew | je0 => exact c.branch_memory _ _
  all_goals rfl

/-- One cycle moves the watchdogs and then writes these bytes. -/
theorem memory_perform (op : Opcode) (c : Cpu M) :
    (c.perform op).memory = Memory.writeAll (moveWatchdogs c.memory) (op.writes c.regs) := by
  have effect : ((c.tick op).execute op).memory =
      Memory.writeAll (moveWatchdogs c.memory) (op.writes (c.tick op).regs) :=
    memory_execute_eq op (c.tick op)
  exact effect.trans (congrArg (Memory.writeAll _) (op.writes_noted c.regs op.byte))

/-- The addresses at which the instruction at IC stores. -/
def stores (c : Cpu M) : List UInt16 :=
  match c.fetch with
  | .ok op => op.storeAddresses c.regs.ar
  | .error _ => []

/-- The byte that the instruction at IC leaves at an address, if it stores there: the one that it
    writes last. -/
def storedAt? (c : Cpu M) (a : UInt16) : Option UInt8 :=
  match c.fetch with
  | .ok op => (op.writes c.regs).reverse.lookup a
  | .error _ => none

/-- The addresses with such a byte are those at which it stores. -/
theorem storedAt?_eq_none_iff : c.storedAt? a = none ↔ a ∉ c.stores := by
  unfold storedAt? stores
  cases c.fetch with
  | error fault => exact ⟨fun _ => List.not_mem_nil, fun _ => rfl⟩
  | ok op =>
    show ((op.writes c.regs).reverse.lookup a) = none ↔ a ∉ op.storeAddresses c.regs.ar
    rw [List.lookup_eq_none_iff, ← Opcode.map_fst_writes, List.mem_map]
    constructor
    · rintro other ⟨w, written, rfl⟩
      exact bne_iff_ne.mp (other w (List.mem_reverse.mpr written)) rfl
    · intro other w written
      exact bne_iff_ne.mpr fun same => other ⟨w, List.mem_reverse.mp written, same.symm⟩

variable [LawfulMemory M]

theorem read_tick (op : Opcode) (c : Cpu M) (a : UInt16) :
    read (c.tick op).memory a = drifted a 1 (read c.memory a) := by
  have memory : (c.tick op).memory = moveWatchdogs c.memory := rfl
  have apart : tickAddress ≠ tockAddress := by decide
  have tock : read (write c.memory tickAddress (read c.memory tickAddress + 1)) tockAddress =
      read c.memory tockAddress := LawfulMemory.read_write_of_ne c.memory _ apart.symm
  rw [memory]
  unfold moveWatchdogs drifted
  simp only [Memory.read_write, tock]
  by_cases first : a = tickAddress
  · subst first
    simp only [if_neg apart, if_pos]
    rfl
  · by_cases second : a = tockAddress
    · subst second
      simp only [if_neg apart.symm, if_pos]
      rfl
    · simp only [if_neg first, if_neg second]

/-- A byte behind one cycle: what the cycle leaves there, or the byte from before with the watchdogs
    moved by one. -/
theorem read_perform_eq (fetch : c.fetch = .ok op) (a : UInt16) :
    read (c.perform op).memory a = (c.storedAt? a).getD (drifted a 1 (read c.memory a)) := by
  have ticked : read (moveWatchdogs c.memory) a = drifted a 1 (read c.memory a) :=
    c.read_tick op a
  have here : c.storedAt? a = (op.writes c.regs).reverse.lookup a := by
    rw [storedAt?, fetch]
  rw [memory_perform, Memory.read_writeAll, ticked, here]

/-- One cycle moves the watchdogs, and changes what its instruction stores. -/
theorem read_perform (fetch : c.fetch = .ok op) (other : a ∉ c.stores) :
    read (c.perform op).memory a = drifted a 1 (read c.memory a) := by
  rw [read_perform_eq fetch, storedAt?_eq_none_iff.mpr other]
  rfl

end Cpu
end Retro24
