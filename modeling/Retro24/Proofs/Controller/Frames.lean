/-
  File:      Retro24/Proofs/Controller/Frames.lean
  Subject:   Which of the drawn frames a run shows.

  * `pictures`: the frames shown for a number of reports, one for each that says that something was
    drawn. `addAll_frames`, `addAll_shown`: these are counted and shown.
  * `Panel.Draws`: the frames that deeds draw on request, each as it is behind its deed.
  * `pictures_of_actAll`: a stretch of deeds shows at most one frame, the one behind its end.
  * `frames_shown`: a run shows a frame for each stretch in which something is drawn, so never more
    than are drawn, and all of them if no poll takes a command behind a single step.
  * `steps_share_frame`: two steps of one poll that both draw are shown as one frame.
-/
import Retro24.Proofs.Controller.Turns

namespace Retro24

variable {σ : Type} {observe : σ → Frame → σ} {stretches : List (List Deed)} {ds : List Deed}
  {p p' q : Panel} {total report : BatchReport} {reports later : List (BatchReport × Frame)}

/-! ## 1. Frames shown and frames drawn -/

/-- The frames that are shown for reports, each with the frame behind it. -/
def pictures (reports : List (BatchReport × Frame)) : List Frame :=
  reports.filterMap fun done => if done.1.redrawn then some done.2 else none

@[simp]
theorem pictures_append : pictures (reports ++ later) = pictures reports ++ pictures later :=
  List.filterMap_append

theorem pictures_cons (frame : Frame) :
    pictures ((report, frame) :: reports) =
      (if report.redrawn then [frame] else []) ++ pictures reports := by
  cases drawn : report.redrawn <;> simp [pictures, drawn]

namespace Controller

theorem addAll_shown {progress : Progress σ} :
    (addAll progress observe reports).shown = (pictures reports).foldl observe progress.shown := by
  induction reports generalizing progress with
  | nil => rfl
  | cons done reports ih =>
    rcases done with ⟨report, frame⟩
    rw [pictures_cons, List.foldl_append]
    refine (@ih (progress.add observe report frame)).trans ?_
    cases drawn : report.redrawn <;> simp [Progress.add, drawn]

theorem addAll_frames {progress : Progress σ} :
    (addAll progress observe reports).frames =
      progress.frames + UInt64.ofNat (pictures reports).length := by
  induction reports generalizing progress with
  | nil => exact (UInt64.add_zero progress.frames).symm
  | cons done reports ih =>
    rcases done with ⟨report, frame⟩
    have first : (progress.add observe report frame).frames =
        progress.frames + UInt64.ofNat (if report.redrawn then [frame] else []).length := by
      cases drawn : report.redrawn <;> simp [Progress.add, drawn]
    refine (@ih (progress.add observe report frame)).trans ?_
    rw [pictures_cons, List.length_append, UInt64.ofNat_add, first, UInt64.add_assoc]

end Controller

/-- The frames that deeds draw on request, each as it is behind its deed. -/
def Panel.Draws (p : Panel) (ds : List Deed) (frames : List Frame) : Prop :=
  ∃ reports q, p.Does (ds.map fun d => [d]) reports q ∧ pictures reports = frames

/-! ## 2. One stretch -/

/-- A deed that draws nothing on request: a command that is no single step. -/
def Deed.Quiet (d : Deed) : Prop := ∃ c, d = .command c ∧ c ≠ .step

/-- The deeds of a stretch one by one. What they draw is reported at their end, where it can be seen
    if only the last of them draws. -/
theorem Panel.does_of_actAll (h : p.actAll total ds = (.ok report, p')) :
    ∃ reports, p.Does (ds.map fun d => [d]) reports p' ∧
      report.redrawn = (total.redrawn || !(pictures reports).isEmpty) ∧
      ((∀ d ∈ ds.dropLast, Deed.Quiet d) →
        pictures reports = [] ∨ pictures reports = [p'.frame]) := by
  induction ds generalizing p total with
  | nil =>
    cases h
    exact ⟨[], .nil p', by simp [pictures], fun _ => .inl rfl⟩
  | cons d ds ih =>
    obtain ⟨first, behind, done, others⟩ := Panel.exists_of_actAll_cons h
    obtain ⟨reports, rest, drawn, last⟩ := ih others
    refine ⟨_, .cons (Panel.actAll_singleton done) rest, ?_, fun quiet => ?_⟩
    · rw [drawn, pictures_cons]
      cases first : first.redrawn <;> simp [BatchReport.andThen, first]
    · rw [pictures_cons]
      cases ds with
      | nil =>
        cases rest
        cases others
        cases first.redrawn
        · exact .inl rfl
        · exact .inr rfl
      | cons d' ds =>
        -- others stand behind this deed, so that it draws nothing
        rw [List.dropLast_cons_cons] at quiet
        obtain ⟨c, rfl, other⟩ := quiet d List.mem_cons_self
        rw [Panel.report_of_handle done other]
        exact last fun d mem => quiet d (List.mem_cons_of_mem _ mem)

/-! ## 3. All stretches -/

/-- Stretches of deeds, deed by deed. -/
theorem Panel.Does.one_by_one (h : p.Does stretches reports q) :
    ∃ each, p.Does (stretches.flatten.map fun d => [d]) each q ∧
      (pictures reports).length ≤ (pictures each).length ∧
      ((∀ ds ∈ stretches, ∀ d ∈ ds.dropLast, Deed.Quiet d) → pictures reports = pictures each) := by
  induction h with
  | nil p => exact ⟨[], .nil p, Nat.le_refl _, fun _ => rfl⟩
  | @cons p p' q ds report stretches reports first rest ih =>
    obtain ⟨each, does, fewer, same⟩ := ih
    obtain ⟨here, doing, drawn, last⟩ := Panel.does_of_actAll first
    refine ⟨here ++ each, ?_, ?_, fun quiet => ?_⟩
    · rw [List.flatten_cons, List.map_append]
      exact doing.append does
    · rw [pictures_cons, pictures_append, List.length_append, List.length_append]
      refine Nat.add_le_add ?_ fewer
      rw [drawn]
      cases pictures here with
      | nil => exact Nat.le_refl 0
      | cons => exact Nat.le_add_left ..
    · rw [pictures_cons, pictures_append, same fun ds mem => quiet ds (List.mem_cons_of_mem _ mem),
        drawn]
      rcases last (quiet ds List.mem_cons_self) with none | one
      · rw [none]
        rfl
      · rw [one]
        rfl

/-! ## 4. Two pictures in one poll -/

namespace Machine

/-- A machine that stands in front of a request for a picture: an SR0 that stores a byte other than
    zero into the draw flag. -/
structure Asking (m : Machine) : Prop where
  awake : m.halted = false
  code : Memory.read m.cpu.memory m.cpu.regs.ic = Opcode.sr0.byte
  target : m.cpu.regs.ar = Bus.drawFlagAddress
  flag : m.cpu.regs.r0 ≠ 0

theorem perform_sr0 (c : Cpu Bus) :
    c.perform .sr0 =
      ⟨{ c.regs with opcode := Opcode.sr0.byte, ic := c.regs.ic + 1 }, c.cycles + 1,
        Memory.write (Cpu.moveWatchdogs c.memory) c.regs.ar c.regs.r0⟩ := by
  rcases c with ⟨regs, cycles, memory⟩
  rfl

variable {m : Machine}

/-- The machine behind the cycle and the picture. -/
def answered (m : Machine) : Machine :=
  (m.withCpu (·.perform .sr0)).redraw.withBus Bus.withdrawRedraw

theorem Asking.runBatch (h : m.Asking) : m.runBatch 1 = (.ok ⟨1, true, false⟩, m.answered) := by
  have fetch : m.cpu.fetch = .ok .sr0 := by
    simp only [Cpu.fetch, h.code, Opcode.ofByte?_byte]
  have step : m.step = (.ok true, m.withCpu (·.perform .sr0)) := by
    simp only [Machine.step, h.awake, fetch, Bool.false_eq_true, if_false]
  have asks : (m.withCpu (·.perform .sr0)).bus.wantsRedraw = true := by
    have flag :
        Memory.read (m.withCpu (·.perform .sr0)).bus Bus.drawFlagAddress = m.cpu.regs.r0 := by
      show Memory.read (m.cpu.perform .sr0).memory Bus.drawFlagAddress = _
      rw [perform_sr0, ← h.target]
      exact LawfulMemory.read_write_self ..
    exact bne_iff_ne.mpr fun none => h.flag (flag.symm.trans none)
  have awake : m.answered.halted = false := by
    show (m.cpu.perform .sr0).regs.halted = false
    rw [perform_sr0]
    exact h.awake
  have served : (m.withCpu (·.perform .sr0)).redrawIfAsked = (true, m.answered) := by
    rw [redrawIfAsked, if_pos asks]
    rfl
  have ran : m.stepsFrom 0 (1 : UInt32).toNat = (.ok 1, m.withCpu (·.perform .sr0)) := by
    show m.stepsFrom 0 (0 + 1) = _
    rw [stepsFrom_succ, step]
    rfl
  rw [runBatch_eq, ran]
  simp only [served, awake]

/-- What the cycle and the picture leave alone. -/
theorem read_answered {a : UInt16} (target : m.cpu.regs.ar = Bus.drawFlagAddress)
    (flag : a ≠ Bus.drawFlagAddress) (tick : a ≠ tickAddress) (tock : a ≠ tockAddress) :
    Memory.read m.answered.bus a = Memory.read m.bus a := by
  show Memory.read (Memory.write (m.cpu.perform .sr0).memory Bus.drawFlagAddress 0) a = _
  rw [perform_sr0, target, LawfulMemory.read_write_of_ne _ _ flag,
    LawfulMemory.read_write_of_ne _ _ flag, Cpu.moveWatchdogs,
    LawfulMemory.read_write_of_ne _ _ tock, LawfulMemory.read_write_of_ne _ _ tick]
  rfl

theorem regs_answered :
    m.answered.cpu.regs =
      { m.cpu.regs with opcode := Opcode.sr0.byte, ic := m.cpu.regs.ic + 1 } := by
  show (m.cpu.perform .sr0).regs = _
  rw [perform_sr0]

/-- The machine asks once more if an SR0 stands behind the first one. -/
theorem Asking.answered (h : m.Asking)
    (next : Memory.read m.bus (m.cpu.regs.ic + 1) = Opcode.sr0.byte)
    (flag : m.cpu.regs.ic + 1 ≠ Bus.drawFlagAddress) (tick : m.cpu.regs.ic + 1 ≠ tickAddress)
    (tock : m.cpu.regs.ic + 1 ≠ tockAddress) : m.answered.Asking where
  awake := by
    rw [halted, Cpu.halted, regs_answered]
    exact h.awake
  code := by
    rw [regs_answered]
    exact (read_answered h.target flag tick tock).trans next
  target := by
    rw [regs_answered]
    exact h.target
  flag := by
    rw [regs_answered]
    exact h.flag

/-- A program of two SR0, with its registers set so that each asks for a picture. -/
def doodling : Machine :=
  (powerOn.mount "Program" [0x12, 0x12]).2.withCpu fun c =>
    { c with regs := { c.regs with ar := Bus.drawFlagAddress, r0 := 1 } }

theorem doodling_eq :
    doodling = { powerOn.softReset.withCpu fun c =>
      { c with
        regs := { c.regs with ar := Bus.drawFlagAddress, r0 := 1 }
        memory := Memory.store c.memory startAddress [0x12, 0x12] } with
      program := some (.ofBytes [0x12, 0x12]) } := by
  rw [doodling, mount_eq powerOn (by decide)]
  rfl

theorem doodling_asking : doodling.Asking ∧ doodling.answered.Asking := by
  have place : doodling.cpu.regs.ic = startAddress := by
    rw [doodling_eq]
    rfl
  have code : ∀ a, a = startAddress ∨ a = startAddress + 1 →
      Memory.read doodling.cpu.memory a = Opcode.sr0.byte := by
    rw [doodling_eq]
    intro a at_start
    show Memory.read (Memory.store (M := Bus) _ startAddress [0x12, 0x12]) a = _
    rw [Memory.store_cons, Memory.store_cons, Memory.store_nil, Memory.read_write,
      Memory.read_write]
    rcases at_start with rfl | rfl <;> rfl
  have first : doodling.Asking := by
    refine ⟨?_, code _ (.inl place), ?_, ?_⟩ <;> rw [doodling_eq]
    · rfl
    · rfl
    · decide
  exact ⟨first, first.answered (code _ (.inr (by rw [place]))) (by rw [place]; decide)
    (by rw [place]; decide) (by rw [place]; decide)⟩

end Machine

/-- A single step of a machine that asks for a picture. -/
theorem Panel.handle_step_asking (h : p.console.machine.Asking) :
    p.handle .step = (.ok ⟨1, true, false⟩, (p.handle .step).2) ∧
      (p.handle .step).2.console.machine = p.console.machine.answered :=
  ⟨Prod.ext (by rw [Panel.handle_step_result, h.runBatch]) rfl,
    by rw [Panel.handle_step_machine, h.runBatch]⟩

namespace Controller

/-- **Two steps of one poll that both draw are shown as one frame**, the one behind the second. -/
theorem steps_share_frame (first : p.console.machine.Asking)
    (second : p.console.machine.answered.Asking) (observe : σ → Frame → σ) (start : σ)
    (budget : Option UInt64) (handles : Nat) :
    p.Draws [.command .step, .command .step, .command .stop]
        [p.console.machine.answered.frame, p.console.machine.answered.answered.frame] ∧
      ∃ p', Ends observe start budget ⟨p, .awaiting [.step, .step, .stop] [] handles⟩
        (.ok ⟨2, 1, .stopped⟩, observe start p.console.machine.answered.answered.frame,
          ⟨p', .awaiting [] [] handles⟩) := by
  obtain ⟨step₁, machine₁⟩ := Panel.handle_step_asking first
  generalize (p.handle .step).2 = p₁ at step₁ machine₁
  rw [← machine₁] at second ⊢
  obtain ⟨step₂, machine₂⟩ := Panel.handle_step_asking second
  generalize (p₁.handle .step).2 = p₂ at step₂ machine₂
  rw [← machine₂]
  constructor
  · refine ⟨_, p₂.stopped, .cons (Panel.actAll_singleton (d := .command .step) step₁)
      (.cons (Panel.actAll_singleton (d := .command .step) step₂)
        (.cons (Panel.actAll_singleton (d := .command .stop) p₂.handle_stop) (.nil _))), rfl⟩
  · have handled : p.actAll .none ([Command.step, .step, .stop].map .command) =
        (.ok ⟨2, true, false⟩, p₂.stopped) := by
      simp only [List.map_cons, List.map_nil, Panel.actAll, Panel.act, step₁, step₂,
        Panel.handle_stop]
      rfl
    exact ⟨_, (Course.last (.stopped (polls_awaiting [] handles handled) rfl)).ends⟩

/-- Two frames drawn, of which the run shows the second one only. -/
theorem steps_share_frame_doodling :
    ∃ (c c' : Controller) (first second : Frame),
      c.channel.queue = [.step, .step, .stop] ∧
      c.panel.Draws (c.channel.queue.map .command) [first, second] ∧
      Ends (fun shown frame => shown ++ [frame]) [] none c
        (.ok ⟨2, 1, .stopped⟩, [second], c') := by
  obtain ⟨first, second⟩ := Machine.doodling_asking
  obtain ⟨draws, p', ends⟩ :=
    steps_share_frame (p := ⟨⟨.doodling, .blank none⟩, .fast, false, false⟩) first second
      (fun shown frame => shown ++ [frame]) [] none 1
  exact ⟨_, _, _, _, rfl, draws, ends⟩

end Controller

/-! ## 5. Runs -/

namespace Controller

variable {start : σ} {budget : Option UInt64} {progress progress' : Progress σ} {c c' : Controller}
  {result : Except MachineError RunEnd}

/-- The stretches of a turn are the commands of a poll, or a single deed. -/
theorem Turned.commands_or_single {t : Turn σ}
    (went : Turned observe budget progress c stretches t) :
    ∀ ds ∈ stretches, (∃ commands : List Command, ds = commands.map .command) ∨ ∃ d, ds = [d] := by
  have behind : ∀ (commands : List Command) (others : List (List Deed)),
      (∀ ds ∈ others, ∃ d, ds = [d]) → ∀ ds ∈ commands.map Deed.command :: others,
        (∃ commands : List Command, ds = commands.map .command) ∨ ∃ d, ds = [d] := by
    intro commands others single ds mem
    rcases List.mem_cons.mp mem with rfl | mem
    · exact .inl ⟨commands, rfl⟩
    · exact .inr (single ds mem)
  cases went with
  | failed _ => exact behind _ [] nofun
  | stopped _ _ => exact behind _ [] nofun
  | waited _ _ _ rest => cases rest <;> exact behind _ _ (by simp)
  | ran _ _ _ rest => cases rest <;> exact behind _ _ (by simp)

theorem Course.commands_or_single
    (course : Course observe budget progress c stretches result progress' c') :
    ∀ ds ∈ stretches, (∃ commands : List Command, ds = commands.map .command) ∨ ∃ d, ds = [d] := by
  induction course with
  | last went => exact went.commands_or_single
  | more went _ ih =>
    intro ds mem
    rcases List.mem_append.mp mem with mem | mem
    · exact went.commands_or_single ds mem
    · exact ih ds mem

/-- A deed in front of the end of a stretch is a command, and draws nothing unless it is a step. -/
theorem quiet_of_mem
    (shape : (∃ commands : List Command, ds = commands.map .command) ∨ ∃ d, ds = [d])
    (noStep : .command .step ∉ ds.dropLast) : ∀ d ∈ ds.dropLast, Deed.Quiet d := by
  intro d mem
  rcases shape with ⟨commands, rfl⟩ | ⟨_, rfl⟩
  · obtain ⟨c, -, rfl⟩ := List.mem_map.mp (List.dropLast_subset _ mem)
    refine ⟨c, rfl, ?_⟩
    rintro rfl
    exact noStep mem
  · cases mem

/-- **The frames that a run shows.** One for each stretch of deeds in which something is drawn on
    request, as it is behind the stretch; so never more than are drawn, and all of them, each as it
    was drawn, if no poll takes a command behind a single step. -/
theorem frames_shown {summary : RunReport} {shown : σ}
    (h : Ends observe start budget c (.ok summary, shown, c')) :
    ∃ stretches reports drawn progress' behind p,
      Course observe budget ⟨0, 0, start⟩ c stretches (.ok summary.reason) progress' behind ∧
      c.panel.Does stretches reports p ∧ c.panel.Draws stretches.flatten drawn ∧
      shown = (pictures reports).foldl observe start ∧
      summary.frames = UInt64.ofNat (pictures reports).length ∧
      (pictures reports).length ≤ drawn.length ∧
      ((∀ ds ∈ stretches, .command .step ∉ ds.dropLast) → pictures reports = drawn) := by
  obtain ⟨stretches, result, progress', behind, course, concluded⟩ := ends_iff.mp h
  cases result with
  | error e => cases concluded
  | ok reason =>
    cases concluded
    obtain ⟨reports, p, does, -, rfl⟩ := course.does
    obtain ⟨each, doing, fewer, same⟩ := does.one_by_one
    refine ⟨stretches, reports, pictures each, _, behind, p, course, does, ⟨each, p, doing, rfl⟩,
      addAll_shown, ?_, fewer, fun last => same fun ds mem => ?_⟩
    · exact addAll_frames.trans (UInt64.zero_add _)
    · exact quiet_of_mem (course.commands_or_single ds mem) (last ds mem)

/-- The two pictures of one poll: one is shown, and two are drawn. -/
theorem frames_shown_doodling :
    ∃ (c c' : Controller) (shown : List Frame) (summary : RunReport),
      Ends (fun shown frame => shown ++ [frame]) [] none c (.ok summary, shown, c') ∧
      summary.frames = 1 ∧
      ∃ stretches reports drawn, c.panel.Draws (List.flatten stretches) drawn ∧
        shown = (pictures reports).foldl (fun shown frame => shown ++ [frame]) [] ∧
        (pictures reports).length ≤ drawn.length := by
  obtain ⟨first, second⟩ := Machine.doodling_asking
  obtain ⟨-, p', ends⟩ :=
    steps_share_frame (p := ⟨⟨.doodling, .blank none⟩, .fast, false, false⟩) first second
      (fun shown frame => shown ++ [frame]) [] none 1
  obtain ⟨stretches, reports, drawn, -, -, -, -, -, draws, shown, -, fewer, -⟩ := frames_shown ends
  exact ⟨_, _, _, _, ends, rfl, stretches, reports, drawn, draws, shown, fewer⟩

end Controller
end Retro24
