/-
  File:      Retro24/Proofs/Controller/Stops.lean
  Subject:   A request to stop ends one run, unless a command behind it fails.

  * `Turned.stop_left`, `Course.stop_left`: the one way in which a turn and a run are over with the
    stop latch set: a command fails in a poll behind the stop.
  * `Ready.turn_works`, `Course.not_stopped`: without a stop left behind, the first turn of the next
    run does a cycle or finds no opcode, and the run does not end as stopped.
  * `stop_ends_one_run`: both together, for every run that ends.
  * `stop_outlives_failure`: a stop in front of a command that fails is left behind, and ends the
    next run before its first cycle.
-/
import Retro24.Proofs.Controller.Turns

namespace Retro24.Controller

variable {σ : Type} {observe : σ → Frame → σ} {start : σ} {budget : Option UInt64}
  {progress progress' : Progress σ} {c c' : Controller} {result : Except MachineError RunEnd}
  {stretches : List (List Deed)}

/-! ## 1. What a run leaves behind -/

/-- A run was left by a command that failed behind a stop. -/
def FailedBehindStop {α : Type} (result : Except MachineError α) (behind : Panel) : Prop :=
  ∃ (e : MachineError) (p : Panel) (command : Command),
    result = .error e ∧ p.stopPending = true ∧ p.handle command = (.error e, behind)

theorem Waited.stop_left {p : Panel} {ch : Channel} (stop : p.stopPending = false)
    (went : Waited observe progress p ch stretches (.over result progress' c')) :
    c'.panel.stopPending = false := by
  cases went with
  | closed _ => exact stop
  | failed _ handled => exact (Panel.stopPending_of_error handled).trans stop

theorem Ran.stop_left {p : Panel} {ch : Channel} (stop : p.stopPending = false)
    (went : Ran observe budget progress p ch stretches (.over result progress' c')) :
    c'.panel.stopPending = false := by
  cases went with
  | halted _ => exact stop
  | spent _ _ => exact stop
  | @failed cycles _ _ _ _ batch =>
    have behind := Panel.stopPending_act p (.batch cycles)
    rw [Panel.act, batch] at behind
    rw [behind, stop]
    rfl

/-- **A turn that ends a run leaves a stop behind only where a command fails behind it.** -/
theorem Turned.stop_left
    (went : Turned observe budget progress c stretches (.over result progress' c')) :
    c'.panel.stopPending = false ∨ FailedBehindStop result c'.panel := by
  cases went with
  | failed polled =>
    obtain ⟨_, report, p, _, handled⟩ := polled
    -- the command that fails is no stop itself
    cases pending : p.stopPending with
    | false => exact .inl ((Panel.stopPending_of_error handled).trans pending)
    | true => exact .inr ⟨_, p, _, rfl, pending, handled⟩
  | stopped _ _ => exact .inl rfl
  | waited _ stop _ rest => exact .inl (rest.stop_left stop)
  | ran _ stop _ rest => exact .inl (rest.stop_left stop)

theorem Course.stop_left
    (course : Course observe budget progress c stretches result progress' c') :
    c'.panel.stopPending = false ∨ FailedBehindStop result c'.panel := by
  induction course with
  | last went => exact went.stop_left
  | more _ _ ih => exact ih

/-! ## 2. The run after it -/

/-- A controller that nobody disturbs: not paused, and with nothing in its queue or to come. -/
structure Undisturbed (c : Controller) : Prop where
  pause : c.panel.paused = false
  queue : c.channel.queue = []
  upcoming : c.channel.upcoming = []

/-- A controller that can go on by itself, in batches that are not empty. -/
structure Ready (c : Controller) : Prop extends Undisturbed c where
  awake : c.panel.console.machine.halted = false
  batch : 1 ≤ c.panel.console.machine.batchLength

theorem Undisturbed.polls (h : c.Undisturbed) : c.Polls [] .none c := by
  rcases c with ⟨p, ⟨_, _, handles⟩⟩
  cases h.queue
  cases h.upcoming
  exact polls_awaiting [] handles rfl

theorem Undisturbed.turn_eq (h : c.Undisturbed) (stop : c.panel.stopPending = false) :
    turn observe budget progress c =
      turnRunning observe budget progress c.panel c.channel := by
  simp only [turn, h.polls.poll_eq, add_none, stop, h.pause, Bool.false_eq_true, if_false]

/-- Nobody stops a run that is not disturbed. -/
theorem Course.not_stopped
    (course : Course observe budget progress c stretches result progress' c')
    (h : c.Undisturbed) (stop : c.panel.stopPending = false) : result ≠ .ok .stopped := by
  induction course with
  | last went =>
    have turned := turned_iff.mpr ⟨_, went⟩
    rw [h.turn_eq stop] at turned
    obtain ⟨_, ran⟩ := ran_iff.mp turned
    cases ran <;> nofun
  | more went _ ih =>
    have turned := turned_iff.mpr ⟨_, went⟩
    rw [h.turn_eq stop] at turned
    obtain ⟨_, ran⟩ := ran_iff.mp turned
    cases ran with
    | done awake size batch =>
      rw [Panel.runBatch_eq] at batch
      cases (Prod.mk.inj batch).2
      exact ih ⟨h.pause, h.queue, h.upcoming⟩ stop

/-- The shorter of a batch and what a budget leaves fits a batch. -/
theorem toNat_min_left (batchLength : UInt32) (left : UInt64) :
    (min batchLength.toUInt64 left).toUInt32.toNat = min batchLength.toNat left.toNat := by
  have small := batchLength.toNat_lt
  rw [UInt64.toNat_toUInt32]
  show (if batchLength.toUInt64 ≤ left then batchLength.toUInt64 else left).toNat % 2 ^ 32 = _
  split
  · next short =>
    rw [UInt64.le_iff_toNat_le, UInt32.toNat_toUInt64] at short
    rw [UInt32.toNat_toUInt64]
    omega
  · next long =>
    rw [UInt64.le_iff_toNat_le, UInt32.toNat_toUInt64] at long
    omega

/-- The first batch of a run is not empty, unless its budget is. -/
theorem batchSize_start {batchLength : UInt32} (filled : 1 ≤ batchLength)
    (room : ∀ limit, budget = some limit → 0 < limit) :
    ∃ cycles, batchSize batchLength budget 0 = some cycles ∧ 1 ≤ cycles := by
  cases budget with
  | none => exact ⟨batchLength, rfl, filled⟩
  | some limit =>
    have more := room limit rfl
    rw [UInt64.lt_iff_toNat_lt, UInt64.toNat_zero] at more
    rw [UInt32.le_iff_toNat_le, UInt32.toNat_one] at filled
    have left : remaining limit 0 = limit := by
      rw [remaining, if_pos (room limit rfl), UInt64.sub_zero]
    have size : limit ≠ 0 := by
      rintro rfl
      exact Nat.lt_irrefl 0 more
    refine ⟨(min batchLength.toUInt64 limit).toUInt32, ?_, ?_⟩
    · simp only [batchSize, left, if_neg size]
    · rw [UInt32.le_iff_toNat_le, toNat_min_left, UInt32.toNat_one]
      omega

/-- **The first turn of a controller that can go on does a cycle or finds no opcode.** -/
theorem Ready.turn_works (h : c.Ready) (stop : c.panel.stopPending = false)
    (room : ∀ limit, budget = some limit → 0 < limit) :
    (∃ fault c', turn observe budget ⟨0, 0, start⟩ c =
      .over (.error (.cpu fault)) ⟨0, 0, start⟩ c') ∨
    ∃ next c', turn observe budget ⟨0, 0, start⟩ c = .next next c' ∧ 1 ≤ next.cycles := by
  obtain ⟨cycles, size, filled⟩ := batchSize_start h.batch room
  have works := Machine.runBatch_works h.awake filled
  rw [← Console.runBatch_result] at works
  have batch := Panel.runBatch_eq c.panel cycles
  rw [h.turn_eq stop]
  rcases works with ⟨fault, failed⟩ | ⟨report, done, some⟩
  · rw [failed] at batch
    exact .inl ⟨fault, _, ran_iff.mpr ⟨_, .failed h.awake size batch⟩⟩
  · rw [done] at batch
    refine .inr ⟨_, _, ran_iff.mpr ⟨_, .done h.awake size batch⟩, ?_⟩
    show 1 ≤ 0 + report.cycles.toUInt64
    rw [UInt64.zero_add, UInt64.le_iff_toNat_le, UInt32.toNat_toUInt64]
    exact UInt32.le_iff_toNat_le.mp some

/-! ## 3. One run and the next -/

/-- A run that goes to work: its first turn does a cycle or finds no opcode, and it does not end
    as stopped. -/
structure GoesToWork (observe : σ → Frame → σ) (start : σ) (budget : Option UInt64)
    (c : Controller) : Prop where
  works : (∃ fault c', turn observe budget ⟨0, 0, start⟩ c =
      .over (.error (.cpu fault)) ⟨0, 0, start⟩ c') ∨
    ∃ next c', turn observe budget ⟨0, 0, start⟩ c = .next next c' ∧ 1 ≤ next.cycles
  goes_on : ∀ report shown c', Ends observe start budget c (.ok report, shown, c') →
    report.reason ≠ .stopped

theorem Ready.goesToWork (h : c.Ready) (stop : c.panel.stopPending = false)
    (room : ∀ limit, budget = some limit → 0 < limit) : GoesToWork observe start budget c where
  works := h.turn_works stop room
  goes_on report shown c' ends := by
    obtain ⟨_, result, _, _, course, concluded⟩ := ends_iff.mp ends
    have goes := course.not_stopped h.toUndisturbed stop
    cases result with
    | error e => cases concluded
    | ok reason =>
      cases concluded
      exact fun same => goes (congrArg Except.ok same)

/-- A poll that leaves a stop pending ends the run. -/
theorem ends_of_stop {commands : List Command} {p : Panel} {ch : Channel}
    (polled : c.Polls commands .none ⟨p, ch⟩) (pending : p.stopPending = true)
    (observe : σ → Frame → σ) (start : σ) (budget : Option UInt64) :
    Ends observe start budget c
      (.ok ⟨0, 0, .stopped⟩, start,
        ⟨{ p with stopPending := false }.note (.runEnded .stopped 0 0), ch⟩) := by
  have ends : Ends observe start budget c _ := (Course.last (.stopped polled pending)).ends
  rw [add_none] at ends
  exact ends

/-- **A stop ends one run.** Whatever is in the queue and comes into it, a run that ends leaves no
    stop behind, so that the next one goes to work, unless a command failed behind the stop. -/
theorem stop_ends_one_run {result : Except MachineError RunReport} {shown : σ}
    (h : Ends observe start budget c (result, shown, c')) :
    FailedBehindStop result c'.panel ∨
      (c'.panel.stopPending = false ∧
        ∀ d : Controller, d.panel.stopPending = c'.panel.stopPending → d.Ready →
          ∀ {τ : Type} (observe : τ → Frame → τ) (start : τ) (budget : Option UInt64),
            (∀ limit, budget = some limit → 0 < limit) → GoesToWork observe start budget d) := by
  obtain ⟨_, result', _, behind, course, concluded⟩ := ends_iff.mp h
  have left : behind.panel.stopPending = false ∨ FailedBehindStop result' behind.panel :=
    course.stop_left
  have latch : c'.panel.stopPending = behind.panel.stopPending := by
    rw [← (Prod.mk.inj (Prod.mk.inj concluded).2).2]
    cases result' <;> rfl
  rcases left with calm | ⟨e, p, command, rfl, pending, handled⟩
  · rw [calm] at latch
    exact .inr ⟨latch, fun d same ready _ _ _ _ room => ready.goesToWork (same.trans latch) room⟩
  · cases concluded
    exact .inl ⟨e, p, command, rfl, pending, handled⟩

/-- A machine as power comes on, stopped before its first cycle, and what follows. -/
theorem stop_ends_one_run_powerOn :
    ∃ c' : Controller,
      Ends (fun n _ => n + 1) 0 none ⟨⟨.powerOn none, .fast, false, false⟩, .awaiting [.stop] [] 1⟩
        (.ok ⟨0, 0, .stopped⟩, 0, c') ∧
      c'.panel.stopPending = false ∧
      ∀ d : Controller, d.panel.stopPending = false → d.Ready →
        GoesToWork (fun n _ => n + 1) 0 (some 1) d := by
  have polled : (⟨⟨.powerOn none, .fast, false, false⟩, .awaiting [.stop] [] 1⟩ : Controller).Polls
      [.stop] .none ⟨_, .awaiting [] [] 1⟩ := polls_awaiting [] 1 rfl
  have ends := ends_of_stop polled rfl (fun n _ => n + 1) 0 none
  refine ⟨_, ends, ?_⟩
  rcases stop_ends_one_run ends with ⟨_, _, _, failed, _⟩ | ⟨calm, next⟩
  · cases failed
  · exact ⟨calm, fun d stop ready => next d (stop.trans calm.symm) ready _ 0 (some 1) (by simp)⟩

/-! ## 4. A stop that outlives its run -/

/-- **A stop in front of a step that finds no opcode is left behind, and ends the next run before
    its first cycle.** -/
theorem stop_outlives_failure {p : Panel} {fault : CpuFault} (start : σ) (handles : Nat)
    (awake : p.console.machine.halted = false)
    (fetch : p.console.machine.cpu.fetch = .error fault) :
    ∃ p', p'.stopPending = true ∧ p'.paused = p.paused ∧
      p'.console.machine = p.console.machine ∧
      Ends observe start budget ⟨p, .awaiting [.stop, .step] [] handles⟩
        (.error (.cpu fault), start, ⟨p', .awaiting [] [] handles⟩) ∧
      ∀ budget, ∃ p'', Ends observe start budget ⟨p', .awaiting [] [] handles⟩
        (.ok ⟨0, 0, .stopped⟩, start, ⟨p'', .awaiting [] [] handles⟩) := by
  have batch := Machine.runBatch_fault awake fetch (UInt32.le_refl 1)
  have failed : p.stopped.handle .step = (.error (.cpu fault), (p.stopped.handle .step).2) :=
    Prod.ext ((Panel.handle_step_result p.stopped).trans (congrArg Prod.fst batch)) rfl
  have pending := Panel.stopPending_of_error failed
  refine ⟨(p.stopped.handle .step).2, pending, ?_, ?_, ?_,
    fun budget => ⟨_, ends_of_stop (polls_awaiting [] handles rfl) pending observe start budget⟩⟩
  · exact Panel.paused_act (d := .command .step) p.stopped nofun nofun
  · exact (Panel.handle_step_machine p.stopped).trans (congrArg Prod.snd batch)
  · have handled : p.actAll .none ([Command.stop].map .command) = (.ok .none, p.stopped) :=
      Panel.actAll_singleton (d := .command .stop) p.handle_stop
    have polled := pollFails_awaiting [] [] handles handled failed
    exact (Course.last (.failed polled)).ends

/-- A machine with a program of one byte, which encodes no opcode. -/
def garbled : Machine := (Machine.powerOn.mount "Program" [0x0C]).2

theorem garbled_eq :
    garbled = { Machine.powerOn.softReset.withBus (Memory.write · startAddress 0x0C) with
      program := some (.ofBytes [0x0C]) } := by
  rw [garbled, Machine.mount_eq .powerOn (by decide)]
  rfl

theorem fetch_garbled : garbled.cpu.fetch = .error (.unknownOpcode 0x0C 0x0100) := by
  have place : garbled.cpu.regs.ic = startAddress := by
    rw [garbled_eq]
    rfl
  have byte : Memory.read garbled.cpu.memory startAddress = 0x0C := by
    rw [garbled_eq]
    exact LawfulMemory.read_write_self _ startAddress 0x0C
  simp only [Cpu.fetch, place, byte]
  rfl

/-- Two commands, of which the second fails, and the run after them. -/
theorem stop_outlives_garbled :
    ∃ c c' c'' : Controller,
      c.panel.console.machine = garbled ∧ c.panel.stopPending = false ∧
      Ends (fun n _ => n + 1) 0 none c
        (.error (.cpu (.unknownOpcode 0x0C 0x0100)), 0, c') ∧
      c'.panel.stopPending = true ∧ c'.Ready ∧
      Ends (fun n _ => n + 1) 0 none c' (.ok ⟨0, 0, .stopped⟩, 0, c'') := by
  have awake : garbled.halted = false := by
    rw [garbled_eq]
    rfl
  have filled : 1 ≤ garbled.batchLength := by
    rw [garbled_eq]
    decide +kernel
  obtain ⟨p', pending, pause, machine, failed, again⟩ :=
    stop_outlives_failure (p := ⟨⟨garbled, .blank none⟩, .fast, false, false⟩) 0 1 awake
      fetch_garbled
  obtain ⟨p'', stopped⟩ := again none
  refine ⟨_, _, _, rfl, rfl, failed, pending, ⟨⟨pause, rfl, rfl⟩, ?_, ?_⟩, stopped⟩
  · rw [machine]
    exact awake
  · rw [machine]
    exact filled

end Retro24.Controller
