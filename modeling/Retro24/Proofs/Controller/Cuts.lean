/-
  File:      Retro24/Proofs/Controller/Cuts.lean
  Subject:   Where a run is cut makes no difference.

  * `LooksAway`: a run in which no instruction reads the draw flag. `Alone.follows_run`: it does
    what the processor does in one piece, the flag apart, whatever the length of its batches.
  * `batch_length_hidden`: so two lengths cannot be told apart, if the program looks away under one
    of them.
  * `checkpoint_resumes`: a run of whole batches, a state that is saved behind it and restored in
    another machine, and a run there are one run.
-/
import Retro24.Proofs.Controller.Undisturbed
import Retro24.Proofs.Machine.SaveStates

namespace Retro24

/-- A batch has at least one cycle. -/
theorem Machine.one_le_setBatchLength (m : Machine) (cycles : UInt32) :
    1 ≤ (m.setBatchLength cycles).batchLength := by
  show 1 ≤ if cycles ≤ 1 then 1 else cycles
  split
  · exact UInt32.le_refl 1
  · next more => exact UInt32.le_of_lt (UInt32.not_le.mp more)

namespace Controller

variable {σ : Type} {observe : σ → Frame → σ} {start : σ} {limit : UInt64} {c c' d : Controller}

/-! ## 1. Another machine under the same controls -/

/-- A controller with another machine. -/
def withMachine (c : Controller) (f : Machine → Machine) : Controller :=
  { c with panel := { c.panel with console := c.panel.console.withMachine f } }

theorem Alone.withMachine (alone : c.Alone) (f : Machine → Machine) : (c.withMachine f).Alone :=
  ⟨⟨alone.pause, alone.queue, alone.upcoming⟩, alone.stop⟩

/-! ## 2. Into batches -/

/-- A run in which no instruction that is attempted reads the draw flag. -/
def LooksAway (observe : σ → Frame → σ) (start : σ) (limit : UInt64) (c : Controller) : Prop :=
  ∀ stretches, Performs observe start (some limit) c stretches →
    Cpu.Ignore Bus.drawFlagAddress (c.panel.attempts stretches.flatten)

/-- **A run that looks away does what the processor does in one piece**, but for the draw flag. It
    is enough that one of the two looks away. -/
theorem Alone.follows_run (observe : σ → Frame → σ) (start : σ) (alone : c.Alone)
    (filled : 1 ≤ c.panel.console.machine.batchLength)
    (blind : LooksAway observe start limit c ∨
      Cpu.Ignore Bus.drawFlagAddress (c.panel.cpu.attempts limit.toNat)) :
    ∃ result shown c', Ends observe start (some limit) c (result, shown, c') ∧
      result.map tally = ((c.panel.cpu.run limit.toNat).1.mapError .cpu).map (fun k =>
        (if (c.panel.cpu.run limit.toNat).2.halted then .halted else .budgetExhausted, k)) ∧
      Cpu.SameBut Bus.drawFlagAddress c'.panel.cpu (c.panel.cpu.run limit.toNat).2 ∧
      LooksAway observe start limit c ∧
      Cpu.Ignore Bus.drawFlagAddress (c.panel.cpu.attempts limit.toNat) := by
  have filled' : 0 < c.panel.console.machine.batchLength.toNat := UInt32.le_iff_toNat_le.mp filled
  have same := Cpu.SameBut.refl Bus.drawFlagAddress c.panel.cpu
  obtain ⟨ended, k, cpu', tried, batched⟩ :=
    Cpu.exists_batched filled' limit.toNat c.panel.cpu
  obtain ⟨result, shown, c', ends, comes, rfl, stretches, performs, rfl, -⟩ :=
    alone.ends batched observe start
  obtain ⟨count, reason, behind, -, blind'⟩ :=
    batched.follows_run same (blind.imp (fun away => away stretches performs) id)
  -- what the processor ignores in one piece it ignores in batches, so that it does not matter
  -- which of the two was known to look away
  refine ⟨result, shown, c', ends, ?_, behind, fun others performs' => ?_, blind'⟩
  · rw [comes, count]
    cases ended with
    | error fault => rfl
    | ok how =>
      rw [reason how rfl]
      rfl
  · obtain ⟨_, _, _, batched'⟩ := alone.attempts performs'
    exact (batched'.follows_run same (.inr blind')).2.2.2.1

/-- **The length of a batch makes no difference to a program that does not look at the draw flag.**
    If the run looks away under one of two lengths, then both runs end, for the same reason behind
    the same number of cycles or with the same fault, and leave the same registers, the same counter
    and the same bytes except for the flag. The processor in one piece does so as well. -/
theorem batch_length_hidden (alone : c.Alone) (b₁ b₂ : UInt32)
    (blind : LooksAway observe start limit (c.withMachine (·.setBatchLength b₁)) ∨
      LooksAway observe start limit (c.withMachine (·.setBatchLength b₂))) :
    ∃ result₁ shown₁ c₁ result₂ shown₂ c₂,
      Ends observe start (some limit) (c.withMachine (·.setBatchLength b₁))
        (result₁, shown₁, c₁) ∧
      Ends observe start (some limit) (c.withMachine (·.setBatchLength b₂))
        (result₂, shown₂, c₂) ∧
      result₁.map tally = result₂.map tally ∧
      Cpu.SameBut Bus.drawFlagAddress c₁.panel.cpu c₂.panel.cpu ∧
      result₁.map (fun summary => summary.cycles.toNat) =
        (c.panel.cpu.run limit.toNat).1.mapError .cpu ∧
      Cpu.SameBut Bus.drawFlagAddress c₁.panel.cpu (c.panel.cpu.run limit.toNat).2 := by
  have filled : ∀ b : UInt32,
      1 ≤ (c.withMachine (·.setBatchLength b)).panel.console.machine.batchLength :=
    fun b => c.panel.console.machine.one_le_setBatchLength b
  have look : ∀ b : UInt32, LooksAway observe start limit (c.withMachine (·.setBatchLength b)) →
      Cpu.Ignore Bus.drawFlagAddress (c.panel.cpu.attempts limit.toNat) := by
    intro b away
    obtain ⟨_, _, _, -, -, -, -, blind⟩ :=
      (alone.withMachine _).follows_run observe start (filled b) (.inl away)
    exact blind
  have pieces := blind.elim (look b₁) (look b₂)
  obtain ⟨result₁, shown₁, c₁, ends₁, comes₁, same₁, -⟩ :=
    (alone.withMachine _).follows_run observe start (filled b₁) (.inr pieces)
  obtain ⟨result₂, shown₂, c₂, ends₂, comes₂, same₂, -⟩ :=
    (alone.withMachine _).follows_run observe start (filled b₂) (.inr pieces)
  refine ⟨_, _, _, _, _, _, ends₁, ends₂, comes₁.trans comes₂.symm, same₁.trans same₂.symm, ?_,
    same₁⟩
  have place : (c.withMachine (·.setBatchLength b₁)).panel.cpu = c.panel.cpu := rfl
  have counts : result₁.map (fun summary => summary.cycles.toNat) =
      (result₁.map tally).map Prod.snd := by
    cases result₁ <;> rfl
  rw [counts, comes₁, place]
  cases (c.panel.cpu.run limit.toNat).1 <;> rfl

/-- The instructions of a program of two NUL read at the start address and behind it. -/
theorem ignore_idling :
    Cpu.Ignore Bus.drawFlagAddress (Machine.idling.cpu.attempts (2 : UInt64).toNat) := by
  obtain ⟨awake, place, -⟩ := Machine.idling_code
  obtain ⟨fetch, fetch', -⟩ := Machine.idling_fetch
  have awake' : (Machine.idling.cpu.perform .nul).halted = false := awake
  have place' : (Machine.idling.cpu.perform .nul).regs.ic = startAddress + 1 :=
    congrArg (· + 1) place
  have tried : Machine.idling.cpu.attempts 2 =
      [Machine.idling.cpu, Machine.idling.cpu.perform .nul] := by
    rw [Cpu.attempts_of_fetch awake fetch, Cpu.attempts_of_fetch awake' fetch',
      Cpu.attempts_zero]
  show Cpu.Ignore Bus.drawFlagAddress (Machine.idling.cpu.attempts 2)
  rw [tried]
  intro s inside
  rcases List.mem_cons.mp inside with rfl | inside
  · rw [Cpu.reads, fetch, place]
    decide
  · rw [List.mem_singleton.mp inside, Cpu.reads, fetch', place']
    decide

/-- Two NUL, one by one and in one batch. -/
theorem batch_length_hidden_idling :
    ∃ (c c₁ c₂ : Controller) (result₁ result₂ : Except MachineError RunReport)
      (shown₁ shown₂ : Nat),
      c.panel.console.machine = .idling ∧
      LooksAway (fun n _ => n + 1) 0 2 (c.withMachine (·.setBatchLength 1)) ∧
      Ends (fun n _ => n + 1) 0 (some 2) (c.withMachine (·.setBatchLength 1))
        (result₁, shown₁, c₁) ∧
      Ends (fun n _ => n + 1) 0 (some 2) (c.withMachine (·.setBatchLength 2))
        (result₂, shown₂, c₂) ∧
      result₁.map tally = result₂.map tally ∧
      Cpu.SameBut Bus.drawFlagAddress c₁.panel.cpu c₂.panel.cpu := by
  let c : Controller := .start ⟨.idling, .blank none⟩
  have alone : c.Alone := ⟨⟨rfl, rfl, rfl⟩, rfl⟩
  obtain ⟨_, _, _, -, -, -, away, -⟩ :=
    (alone.withMachine (·.setBatchLength 1)).follows_run (fun n _ => n + 1) 0
      (Machine.idling.one_le_setBatchLength 1) (.inr ignore_idling)
  obtain ⟨result₁, shown₁, c₁, result₂, shown₂, c₂, ends₁, ends₂, same, cpus, -⟩ :=
    batch_length_hidden alone 1 2 (.inl away)
  exact ⟨c, c₁, c₂, result₁, result₂, shown₁, shown₂, rfl, away, ends₁, ends₂, same, cpus⟩

/-! ## 3. At a checkpoint -/

/-- **A run that is saved and resumed is one run.** The first budget is made up of whole batches,
    and its run does not fail. Then it ends, what it leaves can be restored in every machine with
    batches of the same length, and a run there under a second budget leaves the processor that one
    run under both budgets leaves: with the same registers, memory and counter, for the same reason
    or with the same error, and behind the cycles of both. -/
theorem checkpoint_resumes {k m : UInt64} (reachable : c.panel.console.machine.Reachable)
    (alone : c.Alone) (alone' : d.Alone)
    (length : d.panel.console.machine.batchLength = c.panel.console.machine.batchLength)
    (whole : c.panel.console.machine.batchLength.toNat ∣ k.toNat)
    (room : k.toNat + m.toNat < 0x10000000000000000)
    (runs : ∀ e shown c', ¬ Ends observe start (some k) c (.error e, shown, c')) :
    ∃ summary shown₁ c₁ restored,
      Ends observe start (some k) c (.ok summary, shown₁, c₁) ∧
      d.panel.console.machine.restore c₁.panel.console.machine.toJson = .ok restored ∧
      ∃ result₂ shown₂ c₂ result shown c',
        Ends observe start (some m) (d.withMachine fun _ => restored) (result₂, shown₂, c₂) ∧
        Ends observe start (some (k + m)) c (result, shown, c') ∧
        c₂.panel.cpu = c'.panel.cpu ∧
        result.map tally =
          (result₂.map tally).map fun done => (done.1, summary.cycles.toNat + done.2) := by
  have filled : 0 < c.panel.console.machine.batchLength.toNat :=
    UInt32.le_iff_toNat_le.mp (Machine.sound_of_reachable reachable).batch
  obtain ⟨ended₁, k₁, cpu₁, tried₁, first⟩ := Cpu.exists_batched filled k.toNat c.panel.cpu
  obtain ⟨result₁, shown₁, c₁, ends₁, comes₁, rfl, -⟩ := alone.ends first observe start
  cases result₁ with
  | error e => exact absurd ends₁ (runs e shown₁ c₁)
  | ok summary =>
    cases ended₁ with
    | error fault => cases comes₁
    | ok reason₁ =>
      have count : summary.cycles.toNat = k₁ := congrArg Prod.snd (Except.ok.inj comes₁)
      obtain ⟨ended₂, k₂, cpu₂, tried₂, second⟩ :=
        Cpu.exists_batched filled m.toNat c₁.panel.cpu
      have both := first.append whole second
      have sum : k.toNat + m.toNat = (k + m).toNat := by
        rw [UInt64.toNat_add, Nat.mod_eq_of_lt room]
      rw [sum] at both
      obtain ⟨result, shown, c', ends, comes, place, -⟩ := alone.ends both observe start
      let restored := (d.panel.console.machine.withCpu fun _ => c₁.panel.cpu).redraw
      rw [← length] at second
      obtain ⟨result₂, shown₂, c₂, ends₂, comes₂, place₂, -⟩ :=
        Alone.ends (c := d.withMachine fun _ => restored) (alone'.withMachine _) second observe
          start
      refine ⟨summary, shown₁, c₁, restored, ends₁, Machine.restore_toJson _ _, result₂, shown₂, c₂,
        result, shown, c', ends₂, ends, place₂.trans place.symm, ?_⟩
      rw [comes, comes₂, count]
      cases ended₂ <;> rfl

/-- One NUL and the next, in a machine as power comes on. -/
theorem checkpoint_resumes_idling :
    ∃ (c d c₁ c₂ c' : Controller) (restored : Machine) (summary : RunReport)
      (result₂ result : Except MachineError RunReport) (shown₁ shown₂ shown : Nat),
      c.panel.console.machine = Machine.idling.setBatchLength 1 ∧
      d.panel.console.machine = Machine.powerOn.setBatchLength 1 ∧
      Ends (fun n _ => n + 1) 0 (some 1) c (.ok summary, shown₁, c₁) ∧
      d.panel.console.machine.restore c₁.panel.console.machine.toJson = .ok restored ∧
      Ends (fun n _ => n + 1) 0 (some 1) (d.withMachine fun _ => restored)
        (result₂, shown₂, c₂) ∧
      Ends (fun n _ => n + 1) 0 (some 2) c (result, shown, c') ∧ c₂.panel.cpu = c'.panel.cpu := by
  let c : Controller := .start ⟨Machine.idling.setBatchLength 1, .blank none⟩
  let d : Controller := .start ⟨Machine.powerOn.setBatchLength 1, .blank none⟩
  have alone : c.Alone := ⟨⟨rfl, rfl, rfl⟩, rfl⟩
  have alone' : d.Alone := ⟨⟨rfl, rfl, rfl⟩, rfl⟩
  have one : ∀ m : Machine, (m.setBatchLength 1).batchLength = 1 := fun _ => rfl
  have mine : c.panel.console.machine.batchLength = 1 := one _
  have length : d.panel.console.machine.batchLength = c.panel.console.machine.batchLength :=
    (one _).trans mine.symm
  have reachable : c.panel.console.machine.Reachable :=
    .serve _ (.setBatchLength 1) (.serve _ (.mount "Program" [0x00, 0x00]) .powerOn)
  have filled : 0 < c.panel.console.machine.batchLength.toNat :=
    UInt32.le_iff_toNat_le.mp (Machine.idling.one_le_setBatchLength 1)
  have batched : Cpu.Batched _ (1 : UInt64).toNat c.panel.cpu _ 1 _ _ :=
    Machine.idling_batched filled
  have whole : c.panel.console.machine.batchLength.toNat ∣ (1 : UInt64).toNat := by
    rw [mine]
    decide
  obtain ⟨result₁, _, _, ends₁, comes, -⟩ := alone.ends batched (fun n _ => n + 1) 0
  have runs : ∀ e shown c', ¬ Ends (fun n _ => n + 1) 0 (some 1) c (.error e, shown, c') := by
    intro e shown c' failed
    cases ends_unique ends₁ failed
    cases comes
  obtain ⟨summary, shown₁, c₁, restored, first, saved, result₂, shown₂, c₂, result, shown, c',
      second, both, cpus, -⟩ :=
    checkpoint_resumes (d := d) (m := 1) reachable alone alone' length whole (by decide) runs
  exact ⟨c, d, c₁, c₂, c', restored, summary, result₂, result, shown₁, shown₂, shown, rfl, rfl,
    first, saved, second, both, cpus⟩

end Controller
end Retro24
