/-
  File:      Retro24/Proofs/Listings/Execution.lean
  Subject:   A listing and the processor that runs through it.

  * `Cpu.obey`: what a statement does, its operands taken from the statement and not from memory.
  * `Cpu.Shows`: a text names an opcode and the operands that its effect uses. `Shows.of_fetch`: the
    text of a statement does, wherever memory holds the bytes that it was made from.
  * `Cpu.jumps`, `ic_execute`: an instruction goes on at AR or behind its own bytes; a listing takes
    the same number of bytes for it (`size_fetch`).
  * `Cpu.Straight`: cycles without jumps that leave the bytes of a listing alone. `Straight.first`:
    the first of them executes the first line and leads to the second one. It is enough to compare
    the bytes in front of the cycles: an instruction with operands stores nothing
    (`memory_execute`), so that what the watchdogs do to an operand is still there behind it.
  * `straight_line`: straight-line code runs through its listing line by line; by induction on the
    number of cycles.
-/
import Retro24.Bus
import Retro24.Proofs.Listings.Disassembly
import Retro24.Proofs.Processor.Cycle
import Retro24.Proofs.Processor.Faults
import Retro24.Proofs.Processor.Hidden

namespace Retro24

open Memory (read)

/-! ## 1. Statements and their opcodes -/

namespace Statement

variable {M : Type} [Memory M] {s : Statement} {op : Opcode} {m : M} {a : UInt16}

/-- The opcode of a statement. A data byte has none. -/
def instruction? : Statement → Option Opcode
  | .plain op | .value op _ | .pair op _ _ | .address op _ => some op
  | .data _ => none

theorem instruction?_fetch (m : M) (a : UInt16) :
    (fetch m a).instruction? = Opcode.ofByte? (read m a) := by
  unfold fetch
  cases Opcode.ofByte? (read m a) with
  | none => rfl
  | some op => cases operands : op.operands <;> simp only [operands] <;> rfl

/-- A statement takes as many bytes as its opcode says. -/
theorem size_fetch (code : Opcode.ofByte? (read m a) = some op) : (fetch m a).size = op.size := by
  cases operands : op.operands <;> simp only [fetch, code, operands, size, Opcode.size]

/-- Its bytes are those of the opcode and of the operands behind it. -/
theorem bytes_fetch_of_code (code : Opcode.ofByte? (read m a) = some op) :
    (fetch m a).bytes = op.byte :: (op.operandAddresses a).map (read m) := by
  cases operands : op.operands <;>
    simp only [fetch, code, operands, bytes, Opcode.operandAddresses, Word.low_ofBytes,
      Word.high_ofBytes, List.map_cons, List.map_nil]

/-- A line shows the mnemonic of the statement's opcode, and no other one. -/
theorem take_text_iff : s.text.toList.take 3 = op.mnemonic.toList ↔ s.instruction? = some op := by
  obtain ⟨x, y, z, wanted, second⟩ := mnemonic_letters op
  have front {other : Opcode} (named : s.instruction? = some other) :
      s.text.toList.take 3 = other.mnemonic.toList := by
    obtain ⟨a, b, c, letters, -⟩ := mnemonic_letters other
    cases s with
    | data b => cases named
    | _ =>
      cases named
      simp only [text, String.toList_append, letters, List.cons_append, List.append_assoc,
        List.take_succ_cons, List.take_zero]
  constructor
  · intro shown
    cases named : s.instruction? with
    | some other =>
      have same : op.mnemonic = other.mnemonic := String.toList_inj.mp (shown.symm.trans (front named))
      rw [Opcode.mnemonic_injective same]
    | none =>
      cases s with
      | data b =>
        rw [wanted, text, String.toList_append] at shown
        exact absurd (List.cons.inj (List.cons.inj shown).2).1.symm second
      | _ => cases named
  · exact front

/-- A line that is written like a data byte is none of an instruction. -/
theorem text_eq_data_iff : (∃ b, s.text = "DB $" ++ Hex.byte b) ↔ s.instruction? = none := by
  constructor
  · rintro ⟨b, line⟩
    cases named : s.instruction? with
    | none => rfl
    | some op =>
      obtain ⟨x, y, z, letters, second⟩ := mnemonic_letters op
      have front := take_text_iff.mpr named
      rw [line, letters, String.toList_append] at front
      exact absurd (List.cons.inj (List.cons.inj front).2).1.symm second
  · intro named
    cases s with
    | data b => exact ⟨b, rfl⟩
    | _ => cases named

end Statement

/-! ## 2. What a statement does -/

namespace Cpu

variable {M : Type} [Memory M] {c : Cpu M} {op : Opcode}

/-- What a statement does to a processor. Its operands are taken from the statement itself; an opcode
    alone has none to read, and a data byte does nothing. -/
def obey (s : Statement) (c : Cpu M) : Cpu M :=
  match s with
  | .plain op => c.execute op
  | .value .mr0 v => (c.withRegs ({ · with r0 := v })).advance 2
  | .value .or0 v => (c.withRegs fun r => { r with r0 := r.r0 ||| v }).advance 2
  | .value .an0 v => (c.withRegs fun r => { r with r0 := r.r0 &&& v }).advance 2
  | .value .je0 v => c.branch (c.regs.r0 == v) 2
  | .pair _ v w => (c.withRegs ({ · with r1 := v, r2 := w })).advance 3
  | .address _ target => (c.withRegs ({ · with ar := target })).advance 3
  | .value _ _ | .data _ => c

/-- **An effect is that of the statement**, if memory holds the operands that the statement has. -/
theorem obey_fetch {N : Type} [Memory N] {m : N}
    (code : Opcode.ofByte? (read m c.regs.ic) = some op)
    (same : ∀ a ∈ op.operandAddresses c.regs.ic, read m a = read c.memory a) :
    c.obey (Statement.fetch m c.regs.ic) = c.execute op := by
  cases op
  case mr0 | or0 | an0 | je0 =>
    have first := same (c.regs.ic + 1) List.mem_cons_self
    simp only [Statement.fetch, code, Opcode.operands, first]
    rfl
  case mar | mrw =>
    have first := same (c.regs.ic + 1) List.mem_cons_self
    have second := same (c.regs.ic + 2) (List.mem_cons_of_mem _ List.mem_cons_self)
    simp only [Statement.fetch, code, Opcode.operands, first, second]
    rfl
  all_goals
    simp only [Statement.fetch, code, Opcode.operands]
    rfl

/-- A text shows what a processor executes: it starts with the mnemonic, it assembles to the opcode
    and to the operand bytes that the processor has in memory, and the statement that it is read as
    has the effect of the opcode. -/
structure Shows (text : String) (op : Opcode) (c : Cpu M) : Prop where
  mnemonic : text.toList.take 3 = op.mnemonic.toList
  bytes : assemble? text = some (op.byte :: (op.operandAddresses c.regs.ic).map (read c.memory))
  effect : ∃ s, Statement.parse? text = some s ∧ c.obey s = c.execute op

/-- **The text of a statement shows what is executed where it stands**, in any memory with the bytes
    that it was made from. -/
theorem Shows.of_fetch {N : Type} [Memory N] {m : N}
    (code : Opcode.ofByte? (read m c.regs.ic) = some op)
    (same : ∀ a ∈ op.operandAddresses c.regs.ic, read m a = read c.memory a) :
    Shows (Statement.fetch m c.regs.ic).text op c := by
  have named : (Statement.fetch m c.regs.ic).instruction? = some op := by
    rw [Statement.instruction?_fetch, code]
  have parsed := Statement.parse?_text (Statement.formed_fetch m c.regs.ic)
  refine ⟨Statement.take_text_iff.mpr named, ?_, _, parsed, obey_fetch code same⟩
  rw [assemble?, parsed, Option.map_some, Statement.bytes_fetch_of_code code,
    List.map_congr_left same]

/-! ## 3. Where execution goes on -/

/-- Whether the effect of an opcode goes on at AR: that of a jump does, and that of a conditional one
    if its condition holds. -/
def jumps (op : Opcode) (c : Cpu M) : Bool :=
  match op with
  | .jmp => true
  | .jz0 => c.regs.r0 == 0
  | .jgw => c.regs.r2 < c.regs.r1
  | .jew => c.regs.r1 == c.regs.r2
  | .je0 => c.regs.r0 == c.operand 1
  | _ => false

theorem ic_addWord (r : Registers) : r.addWord.ic = r.ic := by
  simp only [Registers.addWord, apply_ite Registers.ic, ite_self]

theorem ic_subtractWord (r : Registers) (amount : UInt8) : (r.subtractWord amount).ic = r.ic := by
  simp only [Registers.subtractWord, apply_ite Registers.ic, ite_self]

theorem ic_incrementWord (r : Registers) : r.incrementWord.ic = r.ic := by
  simp only [Registers.incrementWord, apply_ite Registers.ic, ite_self]

/-- **An effect that does not jump goes on behind the bytes of its instruction.** -/
theorem ic_execute (op : Opcode) (c : Cpu M) :
    (c.execute op).regs.ic = if c.jumps op then c.regs.ar else c.regs.ic + op.size := by
  have branched (condition : Bool) (n : UInt16) :
      (c.branch condition n).regs.ic = if condition then c.regs.ar else c.regs.ic + n := by
    cases condition <;> rfl
  cases op
  case jz0 | jgw | jew | je0 => exact branched _ _
  case a01 => exact congrArg (· + 1) (ic_addWord c.regs)
  case s01 | drw => exact congrArg (· + 1) (ic_subtractWord c.regs _)
  case irw => exact congrArg (· + 1) (ic_incrementWord c.regs)
  all_goals rfl

/-- An instruction with operands stores nothing. -/
theorem memory_execute (operands : op.operands ≠ .none) (c : Cpu M) :
    (c.execute op).memory = c.memory := by
  cases op
  case mar | mrw | mr0 | or0 | an0 => rfl
  case je0 => exact c.branch_memory _ _
  all_goals exact absurd rfl operands

/-- Whether the cycle at IC takes a jump. Conditions are looked at behind the tick. -/
def turnsAside (c : Cpu M) : Bool :=
  match c.fetch with
  | .ok op => (c.tick op).jumps op
  | .error _ => false

/-! ## 4. Single cycles -/

theorem fetch_eq_ok_iff :
    c.fetch = .ok op ↔ Opcode.ofByte? (read c.memory c.regs.ic) = some op := by
  cases decoded : Opcode.ofByte? (read c.memory c.regs.ic) with
  | none =>
    simp only [fetch, decoded, reduceCtorEq]
  | some op' =>
    simp only [fetch, decoded, Except.ok.injEq, Option.some.injEq]

/-- A cycle that succeeds performs the opcode that it found. -/
theorem performed_of_clock (done : c.clock.1 = .ok op) :
    c.fetch = .ok op ∧ c.clock.2 = c.perform op := by
  cases found : c.fetch with
  | error fault =>
    rw [clock_of_fault found] at done
    cases done
  | ok op' =>
    rw [clock_of_fetch found] at done ⊢
    cases done
    exact ⟨rfl, rfl⟩

/-- A number of cycles succeed one after another. -/
theorem clocks_ok_cons_iff {n : Nat} {rest : List Opcode} :
    (c.clocks (n + 1)).1 = (op :: rest).map .ok ↔
      c.fetch = .ok op ∧ ((c.perform op).clocks n).1 = rest.map .ok := by
  constructor
  · intro done
    have all : c.clock.1 :: (c.clock.2.clocks n).1 = .ok op :: rest.map .ok := done
    obtain ⟨here, behind⟩ := List.cons.inj all
    obtain ⟨fetch, next⟩ := performed_of_clock here
    rw [next] at behind
    exact ⟨fetch, behind⟩
  · rintro ⟨fetch, behind⟩
    show c.clock.1 :: (c.clock.2.clocks n).1 = _
    rw [clock_of_fetch fetch, behind]
    rfl

theorem exists_of_clocks_succ {n : Nat} {ops : List Opcode}
    (done : (c.clocks (n + 1)).1 = ops.map .ok) :
    ∃ op rest, ops = op :: rest ∧ c.fetch = .ok op ∧
      ((c.perform op).clocks n).1 = rest.map .ok := by
  obtain ⟨op, rest, rfl, -, -⟩ := List.map_eq_cons_iff.mp done.symm
  exact ⟨op, rest, rfl, clocks_ok_cons_iff.mp done⟩

/-- A cycle fails where the line is that of a data byte. -/
theorem clock_fails_iff {N : Type} [Memory N] {m : N}
    (same : read m c.regs.ic = read c.memory c.regs.ic) :
    (∃ fault, c.clock.1 = .error fault) ↔
      ∃ b, (disassemble m c.regs.ic).text = "DB $" ++ Hex.byte b := by
  rw [text_disassemble, Statement.text_eq_data_iff, Statement.instruction?_fetch, same]
  unfold clock cycle
  cases found : c.fetch with
  | error fault =>
    have unmapped := (fetch_error_iff.mp found).2
    exact ⟨fun _ => unmapped, fun _ => ⟨fault, rfl⟩⟩
  | ok op =>
    rw [fetch_eq_ok_iff.mp found]
    exact ⟨nofun, nofun⟩

/-- **A cycle that takes no jump goes on behind its line.** -/
theorem ic_perform (fetch : c.fetch = .ok op) (onward : c.turnsAside = false) :
    (c.perform op).regs.ic = c.regs.ic + op.size := by
  have aside : (c.tick op).jumps op = false := by
    unfold turnsAside at onward
    rwa [fetch] at onward
  have place : ((c.tick op).execute op).regs.ic = (c.tick op).regs.ic + op.size := by
    rw [ic_execute, aside]
    rfl
  exact place

end Cpu

/-! ## 5. Lines and their places -/

namespace ListingLine

/-- The addresses that a line takes. -/
def places (line : ListingLine) : List UInt16 :=
  (List.range line.size.toNat).map fun k => line.address + UInt16.ofNat k

variable {M : Type} [Memory M] {m : M} {a : UInt16} {op : Opcode}

theorem places_of_code (code : Opcode.ofByte? (read m a) = some op) :
    (disassemble m a).places = a :: op.operandAddresses a := by
  have size : (disassemble m a).size = op.size := Statement.size_fetch code
  have here : a + UInt16.ofNat 0 = a := UInt16.add_zero a
  unfold places
  rw [size]
  show (List.range op.size.toNat).map (fun k => a + UInt16.ofNat k) = _
  cases operands : op.operands <;> simp only [Opcode.size, Opcode.operandAddresses, operands]
  case none =>
    show [a + UInt16.ofNat 0] = [a]
    rw [here]
  case value =>
    show [a + UInt16.ofNat 0, a + 1] = [a, a + 1]
    rw [here]
  case pair | address =>
    show [a + UInt16.ofNat 0, a + 1, a + 2] = [a, a + 1, a + 2]
    rw [here]

/-- A line takes the address where it stands. -/
theorem mem_places (m : M) (a : UInt16) : a ∈ (disassemble m a).places := by
  cases code : Opcode.ofByte? (read m a) with
  | some op =>
    rw [places_of_code code]
    exact List.mem_cons_self
  | none =>
    have size : (disassemble m a).size = 1 := by
      simp only [size_disassemble, Statement.fetch, code, Statement.size]
    have here : a + UInt16.ofNat 0 = a := UInt16.add_zero a
    unfold places
    rw [size]
    show a ∈ [a + UInt16.ofNat 0]
    rw [here]
    exact List.mem_cons_self

end ListingLine

/-! ## 6. Straight-line code -/

namespace Cpu

variable {M N : Type} [Memory M] [Memory N] {m : N} {c : Cpu M} {n : Nat} {ops : List Opcode}

/-- A number of cycles that all succeed and take no jump, and the lines of a listing, one more than
    the cycles: in front of every cycle, and behind the last one, memory holds the bytes that the
    listing was made from. -/
structure Straight (m : N) (c : Cpu M) (n : Nat) (ops : List Opcode) : Prop where
  done : (c.clocks n).1 = ops.map .ok
  onward : ∀ i, i < n → (c.clocks i).2.turnsAside = false
  unchanged : ∀ i, i ≤ n → ∀ line ∈ sweep m c.regs.ic (n + 1), ∀ a ∈ line.places,
    read (c.clocks i).2.memory a = read m a

/-- **The first of them** executes what the first line shows, and leads to the second line. -/
theorem Straight.first (h : Straight m c (n + 1) ops) :
    ∃ op rest, ops = op :: rest ∧
      Shows (disassemble m c.regs.ic).text op (c.tick op) ∧
      c.clock.2.regs.ic = c.regs.ic + (disassemble m c.regs.ic).size ∧
      Straight m c.clock.2 n rest := by
  obtain ⟨done, onward, unchanged⟩ := h
  obtain ⟨op, rest, rfl, fetch, behind⟩ := exists_of_clocks_succ done
  have next := congrArg Prod.snd (clock_of_fetch fetch)
  rw [sweep_succ] at unchanged
  have before := unchanged 0 (Nat.zero_le _) _ List.mem_cons_self
  have after := unchanged 1 (Nat.succ_pos n) _ List.mem_cons_self
  have code : Opcode.ofByte? (read m c.regs.ic) = some op := by
    rw [← before _ (ListingLine.mem_places m _)]
    exact fetch_eq_ok_iff.mp fetch
  have place : c.clock.2.regs.ic = c.regs.ic + (disassemble m c.regs.ic).size := by
    rw [next, ic_perform fetch (onward 0 (Nat.succ_pos n)), size_disassemble,
      Statement.size_fetch code]
  -- operands are read behind the tick, and nothing is stored between that and the next cycle
  have operands : ∀ a ∈ op.operandAddresses (c.tick op).regs.ic,
      read m a = read (c.tick op).memory a := by
    intro a inside
    have kept : ((c.tick op).execute op).memory = (c.tick op).memory := by
      refine memory_execute ?_ _
      intro none
      rw [Opcode.operandAddresses, none] at inside
      cases inside
    have listed : a ∈ (disassemble m c.regs.ic).places := by
      rw [ListingLine.places_of_code code]
      exact List.mem_cons_of_mem _ inside
    have last : read c.clock.2.memory a = read m a := after a listed
    rw [next] at last
    rw [← last, ← kept]
    rfl
  refine ⟨op, rest, rfl, Shows.of_fetch (c := c.tick op) code operands, place, ?_, ?_, ?_⟩
  · rwa [next]
  · intro i inside
    exact onward (i + 1) (Nat.succ_lt_succ inside)
  · intro i inside line listed
    rw [place] at listed
    exact unchanged (i + 1) (Nat.succ_le_succ inside) line (List.mem_cons_of_mem _ listed)

/-- **Straight-line code runs through its listing.** Where a number of cycles succeed, take no jump
    and leave the bytes of the listing alone, the processor stands at each line in its turn and
    executes the opcode and the operands that the line shows. Behind them it stands at the next line,
    where a cycle fails exactly if that line is a data byte. -/
theorem straight_line (h : Straight m c n ops) :
    (∀ i, i < n → ∃ line op, (sweep m c.regs.ic (n + 1))[i]? = some line ∧ ops[i]? = some op ∧
      line.address = (c.clocks i).2.regs.ic ∧ Shows line.text op ((c.clocks i).2.tick op)) ∧
    ∃ line, (sweep m c.regs.ic (n + 1))[n]? = some line ∧
      line.address = (c.clocks n).2.regs.ic ∧
      ((∃ fault, (c.clocks n).2.clock.1 = .error fault) ↔
        ∃ b, line.text = "DB $" ++ Hex.byte b) := by
  induction n generalizing c ops with
  | zero =>
    have here := h.unchanged 0 (Nat.le_refl 0) (disassemble m c.regs.ic) List.mem_cons_self
      c.regs.ic (ListingLine.mem_places m c.regs.ic)
    refine ⟨fun i inside => absurd inside (Nat.not_lt_zero i), disassemble m c.regs.ic, rfl, rfl, ?_⟩
    exact clock_fails_iff here.symm
  | succ n ih =>
    obtain ⟨op, rest, rfl, shown, place, behind⟩ := h.first
    obtain ⟨lines, last⟩ := ih behind
    rw [place] at lines last
    rw [sweep_succ]
    refine ⟨?_, last⟩
    intro i inside
    cases i with
    | zero => exact ⟨disassemble m c.regs.ic, op, rfl, rfl, rfl, shown⟩
    | succ i => exact lines i (Nat.lt_of_succ_lt_succ inside)

/-- Straight-line code across the border of two regions: a `JE0` that does not jump, an `SR0` that
    stores behind the code, and a byte that encodes no opcode. -/
def passage : Cpu Bus :=
  ⟨{ Registers.powerOn with ic := 0x00FF, ar := 0x0103 }, 0,
    Memory.store Bus.blank 0x00FF [Opcode.je0.byte, 0x05, Opcode.sr0.byte, 0x0B]⟩

/-- The two instructions succeed and leave their bytes alone; the third line is the data byte at
    $0102, where a cycle fails. -/
theorem straight_line_passage :
    Straight passage.memory passage 2 [.je0, .sr0] ∧
    ∃ fault, (passage.clocks 2).2.clock.1 = .error fault := by
  have done : (passage.clocks 2).1 = [Opcode.je0, .sr0].map .ok := by
    refine clocks_ok_cons_iff.mpr ⟨fetch_eq_ok_iff.mpr (by decide +kernel), ?_⟩
    exact clocks_ok_cons_iff.mpr ⟨fetch_eq_ok_iff.mpr (by decide +kernel), rfl⟩
  have unchanged : (List.range 3).all (fun i =>
      (sweep passage.memory passage.regs.ic 3).all fun line => line.places.all fun a =>
        read (passage.clocks i).2.memory a == read passage.memory a) = true := by decide +kernel
  simp only [List.all_eq_true, List.mem_range, beq_iff_eq] at unchanged
  have straight : Straight passage.memory passage 2 [.je0, .sr0] := by
    refine ⟨done, by decide +kernel, ?_⟩
    intro i inside
    exact unchanged i (Nat.lt_succ_of_le inside)
  refine ⟨straight, ?_⟩
  obtain ⟨-, line, last, -, stops⟩ := straight_line straight
  have listed : sweep passage.memory passage.regs.ic 3 =
      [⟨0x00FF, "JE0 #$05", 2⟩, ⟨0x0101, "SR0", 1⟩, ⟨0x0102, "DB $0B", 1⟩] := by decide +kernel
  rw [listed] at last
  cases last
  exact stops.mpr ⟨0x0B, by decide +kernel⟩

end Cpu

end Retro24
