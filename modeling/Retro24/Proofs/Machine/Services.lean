/-
  File:      Retro24/Proofs/Machine/Services.lean
  Subject:   A batch is a bounded run of the processor and one look at the draw flag.

  * `Machine.Serviced`: the machine and the report behind a batch, next to the processor behind the
    run: they differ in the draw flag, which is off, and in the picture, if one was asked for.
    `serviced_runBatch`: every batch whose run succeeds is of this kind.
  * `Display.drawOver_withdrawRedraw`: taking the flag back does not show.
  * `runBatch_idle`: a batch behind which the flag is off is the run alone.
  * `Machine.InTwo`: a batch does what two of its parts do, one after the other. `inTwo_of_idle`: so
    it is if the first part leaves the flag off. With the flag on the first part would draw a picture
    that the whole batch does not draw.
  * `batches_serve_once`: both together.
-/
import Retro24.Proofs.Machine.Pictures
import Retro24.Proofs.Processor.Faults

namespace Retro24

open Memory (read)

/-- A result that is computed without its state. -/
theorem eq_ok_of_toOption {ε α β : Type} {r : Except ε α × β} {a : α}
    (value : r.1.toOption = some a) : r = (.ok a, r.2) := by
  rcases r with ⟨(e | b), s⟩
  · cases value
  · cases value
    rfl

/-! ## 1. The draw flag -/

namespace Bus

theorem wantsRedraw_iff {b : Bus} : b.wantsRedraw = true ↔ read b drawFlagAddress ≠ 0 :=
  bne_iff_ne

end Bus

/-- Taking the flag back leaves the planes as they are. -/
theorem Display.drawOver_withdrawRedraw (d : Display) (b : Bus) (f : Frame) :
    d.drawOver b.withdrawRedraw f = d.drawOver b f := rfl

/-- A processor whose flag is served: the flag is off, and no other byte has changed. -/
theorem Cpu.read_served (c : Cpu Bus) (a : UInt16) :
    read c.served.memory a = if a = Bus.drawFlagAddress then 0 else read c.memory a := by
  by_cases flag : a = Bus.drawFlagAddress
  · rw [if_pos flag, flag]
    unfold served
    cases asked : c.memory.wantsRedraw with
    | true => exact LawfulMemory.read_write_self c.memory _ 0
    | false => exact bne_eq_false_iff_eq.mp asked
  · rw [if_neg flag]
    exact (sameBut_served c).bytes a flag

namespace Machine

variable {m : Machine} {a b n : UInt32} {c : Cpu Bus} {k : Nat} {report : BatchReport}

/-! ## 2. One batch -/

/-- The machine behind a batch, next to the processor `c` that the run of its cycles leaves behind
    `k` of them. -/
structure Serviced (m : Machine) (n : UInt32) (k : Nat) (c : Cpu Bus) (report : BatchReport)
    (m' : Machine) : Prop where
  does : m.cpu.Does k c
  registers : m'.registers = c.regs
  counter : m'.cpu.cycles = c.cycles
  memory (a : UInt16) : read m'.bus a = if a = Bus.drawFlagAddress then 0 else read c.memory a
  cycles : report.cycles.toNat = k
  bound : k ≤ n.toNat
  short : k < n.toNat → m'.halted = true
  halted : report.halted = m'.halted
  redrawn : report.redrawn = true ↔ read c.memory Bus.drawFlagAddress ≠ 0
  drawn : report.redrawn = true →
    m'.frame = m.display.drawOver m'.bus m.frame ∧ m'.pictures = m.pictures + 1
  undrawn : report.redrawn = false → m'.frame = m.frame ∧ m'.pictures = m.pictures
  others : m'.display = m.display ∧ m'.program = m.program ∧ m'.batchLength = m.batchLength

/-- **Every batch whose run succeeds is served.** -/
theorem serviced_runBatch (run : m.cpu.run n.toNat = (.ok k, c)) :
    ∃ report, (m.runBatch n).1 = .ok report ∧ m.Serviced n k c report (m.runBatch n).2 := by
  have bound : k ≤ n.toNat := Cpu.run_le run
  have small : k < 0x100000000 := Nat.lt_of_le_of_lt bound n.toNat_lt
  rw [runBatch_eq_of_run run]
  refine ⟨_, rfl, ?_⟩
  have cpu : (m.withCpu fun _ => c).redrawIfAsked.2.cpu = c.served := redrawIfAsked_cpu _
  have halt : (m.withCpu fun _ => c).redrawIfAsked.2.halted = c.halted := by
    rw [halted, cpu, Cpu.halted_served]
  have same := Cpu.sameBut_served c
  have asked : c.memory.wantsRedraw = true → (m.withCpu fun _ => c).redrawIfAsked.2 =
      (m.withCpu fun _ => c).redraw.withBus Bus.withdrawRedraw := by
    intro flag
    exact congrArg Prod.snd (if_pos flag)
  have idle : c.memory.wantsRedraw = false →
      (m.withCpu fun _ => c).redrawIfAsked.2 = m.withCpu fun _ => c := by
    intro flag
    exact congrArg Prod.snd (if_neg (Bool.eq_false_iff.mp flag))
  constructor
  case does => exact Cpu.does_of_run run
  case registers =>
    rw [registers, cpu]
    exact same.regs
  case counter =>
    rw [cpu]
    exact same.cycles
  case memory =>
    intro a
    rw [bus, cpu]
    exact c.read_served a
  case cycles => exact UInt32.toNat_ofNat_of_lt' small
  case bound => exact bound
  case short =>
    intro fewer
    exact halt.trans (Cpu.run_short run fewer)
  case halted => exact halt.symm
  case redrawn => exact Bus.wantsRedraw_iff
  case drawn =>
    intro flag
    rw [asked flag]
    exact ⟨(m.display.drawOver_withdrawRedraw c.memory m.frame).symm, rfl⟩
  case undrawn =>
    intro flag
    rw [idle flag]
    exact ⟨rfl, rfl⟩
  case others =>
    cases flag : c.memory.wantsRedraw with
    | true =>
      rw [asked flag]
      exact ⟨rfl, rfl, rfl⟩
    | false =>
      rw [idle flag]
      exact ⟨rfl, rfl, rfl⟩

/-- On a machine that can come about the picture is the one of the planes. -/
theorem Serviced.current {m' : Machine} (h : m.Serviced n k c report m') (sound : m.Sound)
    (redrawn : report.redrawn = true) : m'.Current := by
  obtain ⟨frame, -⟩ := h.drawn redrawn
  obtain ⟨display, -⟩ := h.others
  unfold Current
  rw [frame, display]
  exact drawOver_eq_picture m.display m'.bus sound.width sound.height sound.pixels

/-! ## 3. A batch in two parts -/

/-- A batch behind which the flag is off draws nothing. -/
theorem runBatch_idle (run : m.cpu.run n.toNat = (.ok k, c))
    (off : read c.memory Bus.drawFlagAddress = 0) :
    m.runBatch n = (.ok ⟨UInt32.ofNat k, false, c.halted⟩, m.withCpu fun _ => c) := by
  have idle : c.memory.wantsRedraw = false := bne_eq_false_iff_eq.mpr off
  rw [runBatch_eq_of_run run, idle]
  exact congrArg (Prod.mk _) (congrArg Prod.snd (if_neg (Bool.eq_false_iff.mp idle)))

/-- A batch of `a + b` cycles, next to one of `a` cycles and one of `b` cycles behind it: it fails
    where one of these fails, and leaves what it leaves; and otherwise it leaves what the second one
    leaves, with the cycles of both. -/
structure InTwo (m : Machine) (a b : UInt32) : Prop where
  first (e : MachineError) (m₁ : Machine) :
    m.runBatch a = (.error e, m₁) → m.runBatch (a + b) = (.error e, m₁)
  second (early : BatchReport) (e : MachineError) (m₁ m₂ : Machine) :
    m.runBatch a = (.ok early, m₁) → m₁.runBatch b = (.error e, m₂) →
      m.runBatch (a + b) = (.error e, m₂)
  both (early late : BatchReport) (m₁ m₂ : Machine) :
    m.runBatch a = (.ok early, m₁) → m₁.runBatch b = (.ok late, m₂) →
      ∃ report, m.runBatch (a + b) = (.ok report, m₂) ∧
        report.cycles.toNat = early.cycles.toNat + late.cycles.toNat ∧
        report.redrawn = (early.redrawn || late.redrawn) ∧ report.halted = late.halted

/-- **A first part that fails or leaves the flag off can be cut off.** -/
theorem inTwo_of_idle (room : a.toNat + b.toNat < 0x100000000)
    (off : ∀ k c, m.cpu.run a.toNat = (.ok k, c) → read c.memory Bus.drawFlagAddress = 0) :
    m.InTwo a b := by
  have total : (a + b).toNat = a.toNat + b.toNat := by
    rw [UInt32.toNat_add, Nat.mod_eq_of_lt room]
  have inside : a.toNat ≤ (a + b).toNat := by omega
  rcases run : m.cpu.run a.toNat with ⟨(fault | k), c⟩
  · -- the run of all cycles fails where the first ones fail
    have early : m.runBatch a = _ := runBatch_of_fault run
    have whole : m.runBatch (a + b) = _ := runBatch_of_fault (Cpu.run_split_error run inside).1
    refine ⟨fun e m₁ h => ?_, fun _ e m₁ m₂ h => ?_, fun _ _ m₁ m₂ h => ?_⟩
    · rw [whole, ← h, early]
    · cases early.symm.trans h
    · cases early.symm.trans h
  · have early := runBatch_idle run (off k c run)
    have split := (Cpu.run_split run inside).1
    rw [total, Cpu.run_rest run, ← total] at split
    rcases rest : c.run b.toNat with ⟨(fault | j), c₂⟩
    · rw [rest] at split
      have late : (m.withCpu fun _ => c).runBatch b = _ := runBatch_of_fault rest
      have whole : m.runBatch (a + b) = _ := runBatch_of_fault split
      refine ⟨fun e m₁ h => ?_, fun _ e m₁ m₂ h h' => ?_, fun _ _ m₁ m₂ h h' => ?_⟩
      · cases early.symm.trans h
      · cases early.symm.trans h
        cases late.symm.trans h'
        exact whole
      · cases early.symm.trans h
        cases late.symm.trans h'
    · rw [rest] at split
      have late : (m.withCpu fun _ => c).runBatch b = _ := runBatch_eq_of_run rest
      have whole : m.runBatch (a + b) = _ := runBatch_eq_of_run split
      refine ⟨fun e m₁ h => ?_, fun _ e m₁ m₂ h h' => ?_, fun _ _ m₁ m₂ h h' => ?_⟩
      · cases early.symm.trans h
      · cases early.symm.trans h
        cases late.symm.trans h'
      · cases early.symm.trans h
        cases late.symm.trans h'
        have first := Cpu.run_le run
        have second := Cpu.run_le rest
        have small {i : Nat} (low : i < 0x100000000) : (UInt32.ofNat i).toNat = i :=
          UInt32.toNat_ofNat_of_lt' low
        refine ⟨_, whole, ?_, rfl, rfl⟩
        show (UInt32.ofNat (k + j)).toNat = (UInt32.ofNat k).toNat + (UInt32.ofNat j).toNat
        rw [small (by omega), small (by omega), small (by omega)]

/-! ## 4. All batches -/

/-- **A batch is a bounded run of the processor and one look at the draw flag.** Every batch whose
    run succeeds leaves registers, counter and memory as the run does, but with the flag off, and
    counts its cycles; it draws exactly if the flag is on behind the run, and then the picture of the
    planes. A batch whose run fails leaves what the run leaves. Two batches one after the other are
    one batch of their cycles, if the cycles of the first one fail or leave the flag off. -/
theorem batches_serve_once (m : Machine) :
    (∀ (n : UInt32) (k : Nat) (c : Cpu Bus), m.cpu.run n.toNat = (.ok k, c) →
      ∃ report m', m.runBatch n = (.ok report, m') ∧ m.Serviced n k c report m' ∧
        (m.Reachable → report.redrawn = true → m'.Current)) ∧
    (∀ (n : UInt32) (fault : CpuFault) (c : Cpu Bus), m.cpu.run n.toNat = (.error fault, c) →
      m.runBatch n = (.error (.cpu fault), m.withCpu fun _ => c)) ∧
    ∀ a b : UInt32, a.toNat + b.toNat < 0x100000000 →
      (∀ k c, m.cpu.run a.toNat = (.ok k, c) → read c.memory Bus.drawFlagAddress = 0) →
      m.InTwo a b := by
  refine ⟨fun n k c run => ?_, fun n fault c run => runBatch_of_fault run,
    fun a b room off => inTwo_of_idle room off⟩
  obtain ⟨report, ok, serviced⟩ := serviced_runBatch run
  exact ⟨report, _, Prod.ext ok rfl, serviced, fun reachable =>
    serviced.current (sound_of_reachable reachable)⟩

/-- A program that asks for a picture with its third instruction, lights a pixel and halts. -/
def lighting : Machine :=
  (powerOn.serve (.mount "Program"
    [0x01, 0x0A, 0x00, 0x17, 0x01, 0x12, 0x01, 0x00, 0xE0, 0x12, 0xFF])).2

/-- The two cycles in front of the request can be a batch of their own, and the picture shows the
    pixel that is lit behind it. -/
theorem batches_serve_once_lighting :
    ∃ m₁ m₂ early late report, lighting.runBatch 2 = (.ok early, m₁) ∧
      m₁.runBatch 98 = (.ok late, m₂) ∧ lighting.runBatch 100 = (.ok report, m₂) ∧
      report.cycles.toNat = 6 ∧ report.redrawn = true ∧ m₂.halted = true ∧ m₂.Current := by
  have two : lighting.cpu.run 2 = (.ok 2, _) := eq_ok_of_toOption (by decide +kernel)
  have all : lighting.cpu.run 100 = (.ok 6, _) := eq_ok_of_toOption (by decide +kernel)
  obtain ⟨serves, -, splits⟩ := batches_serve_once lighting
  have off : ∀ k c, lighting.cpu.run 2 = (.ok k, c) → read c.memory Bus.drawFlagAddress = 0 := by
    intro k c run
    have behind : (lighting.cpu.run 2).2 = c := congrArg Prod.snd run
    rw [← behind]
    decide +kernel
  have parts := splits 2 98 (by decide) off
  obtain ⟨early, m₁, first, -⟩ := serves 2 2 _ two
  obtain ⟨report, m₂, whole, serviced, current⟩ := serves 100 6 _ all
  have redrawn : report.redrawn = true := serviced.redrawn.mpr (by decide +kernel)
  have reachable : lighting.Reachable := .serve _ _ .powerOn
  rcases second : m₁.runBatch 98 with ⟨(e | late), m₃⟩
  · cases (parts.second early e m₁ m₃ first second).symm.trans whole
  · obtain ⟨report', whole', -⟩ := parts.both early late m₁ m₃ first second
    cases whole'.symm.trans whole
    exact ⟨m₁, m₂, early, late, report, first, second, whole, serviced.cycles, redrawn,
      serviced.short (by decide), current reachable redrawn⟩

end Machine
end Retro24
