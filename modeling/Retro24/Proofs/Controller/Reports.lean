/-
  File:      Retro24/Proofs/Controller/Reports.lean
  Subject:   What the report of a step, of a batch and of a poll says.

  * `Machine.Reported`: a report is true of a batch: it counts the cycles that were done, says
    whether a picture was drawn, and whether the processor is halted behind them.
    `reported_runBatch`: the report of every batch is, and so are those of a step and of a panel's own
    batch.
  * `Panel.DrawsAmong`: a single step among some commands draws a picture. `redrawn_of_actAll`: it is
    this that a report of commands says.
  * `halted_of_actAll`: it says that the processor is halted only if the last command was a single
    step, since every other command reports nothing.
  * `Controller.PollReported`, `reports_true`: the report of a poll. Cycles and pictures are those of
    its single steps.
  * `poll_hides_halt`: a step that halts the processor and a key released behind it are reported as
    if it were awake.
-/
import Retro24.Proofs.Controller.Attempts
import Retro24.Proofs.Machine.Services

namespace Retro24

/-! ## 1. One batch -/

namespace Machine

/-- A report is true of a batch of at most `n` cycles that leads from one machine to another one. -/
structure Reported (m : Machine) (n : Nat) (report : BatchReport) (m' : Machine) : Prop where
  cycles : report.cycles.toNat = (m.cpu.attempts n).countP Cpu.runsHere
  redrawn : report.redrawn = true ↔ m'.pictures = m.pictures + 1
  drawn : report.redrawn = true → m'.frame = m.display.drawOver m'.bus m.frame
  undrawn : report.redrawn = false → m'.frame = m.frame ∧ m'.pictures = m.pictures
  halted : report.halted = m'.halted

variable {m m' : Machine} {n : UInt32} {report : BatchReport}

/-- **The report of a batch is true.** -/
theorem reported_runBatch (h : m.runBatch n = (.ok report, m')) :
    m.Reported n.toNat report m' := by
  have cycles := Panel.cycles_of_runBatch (congrArg Prod.fst h)
  rcases run : m.cpu.run n.toNat with ⟨(fault | k), c⟩
  · cases (runBatch_of_fault run).symm.trans h
  · obtain ⟨report', ok, serviced⟩ := serviced_runBatch run
    rw [h] at ok serviced
    cases ok
    refine ⟨cycles, ⟨fun drawn => (serviced.drawn drawn).2, fun more => ?_⟩,
      fun drawn => (serviced.drawn drawn).1, serviced.undrawn, serviced.halted⟩
    cases drawn : report.redrawn with
    | true => rfl
    | false =>
      -- without a picture the number of pictures stays
      have same := (serviced.undrawn drawn).2.symm.trans more
      exact absurd (UInt64.left_eq_add.mp same) (by decide)

end Machine

namespace Panel

variable {p p' : Panel} {total report : BatchReport} {n : UInt32} {c : Command}
  {commands : List Command}

theorem reported_of_runBatch (h : p.runBatch n = (.ok report, p')) :
    p.console.machine.Reported n.toNat report p'.console.machine := by
  rw [runBatch_eq] at h
  obtain ⟨result, behind⟩ := Prod.mk.inj h
  refine Machine.reported_runBatch (Prod.ext ((Console.runBatch_result _ n).symm.trans result) ?_)
  rw [← behind]
  exact (Console.runBatch_machine _ n).symm

/-- The report of a single step that is asked for by a command. -/
theorem reported_of_handle_step (h : p.handle .step = (.ok report, p')) :
    p.console.machine.Reported 1 report p'.console.machine := by
  have batch : (p.note (.command .step)).runBatch 1 = (.ok report, p') := h
  exact reported_of_runBatch batch

/-! ## 2. Commands one after another -/

/-- A single step among some commands draws a picture. -/
inductive DrawsAmong : Panel → List Command → Prop where
  | here {p p' : Panel} {report : BatchReport} (commands : List Command)
      (done : p.handle .step = (.ok report, p'))
      (draws : p'.console.machine.pictures = p.console.machine.pictures + 1) :
      DrawsAmong p (.step :: commands)
  | later {p p' : Panel} {report : BatchReport} {c : Command} {commands : List Command}
      (done : p.handle c = (.ok report, p')) (rest : DrawsAmong p' commands) :
      DrawsAmong p (c :: commands)

theorem drawsAmong_cons_iff (done : p.handle c = (.ok report, p')) :
    p.DrawsAmong (c :: commands) ↔ report.redrawn = true ∨ p'.DrawsAmong commands := by
  constructor
  · intro draws
    cases draws with
    | here _ done' draws =>
      cases done.symm.trans done'
      exact .inl ((reported_of_handle_step done).redrawn.mpr draws)
    | later done' rest =>
      cases done.symm.trans done'
      exact .inr rest
  · rintro (drawn | rest)
    · by_cases step : c = .step
      · subst step
        exact .here commands done ((reported_of_handle_step done).redrawn.mp drawn)
      · rw [report_of_handle done step] at drawn
        cases drawn
    · exact .later done rest

/-- **A report of commands says whether a single step among them draws.** -/
theorem redrawn_of_actAll (h : p.actAll total (commands.map .command) = (.ok report, p')) :
    report.redrawn = true ↔ total.redrawn = true ∨ p.DrawsAmong commands := by
  induction commands generalizing p total with
  | nil =>
    cases h
    exact ⟨.inl, fun drawn => drawn.resolve_right nofun⟩
  | cons c commands ih =>
    obtain ⟨first, behind, done, rest⟩ := exists_of_actAll_cons h
    rw [ih rest, drawsAmong_cons_iff done, ← or_assoc]
    exact or_congr_left (Bool.or_eq_true_iff ..)

/-- **It says that the processor is halted exactly if it is and the last command was a single
    step.** -/
theorem halted_of_actAll (h : p.actAll total (commands.map .command) = (.ok report, p')) :
    report.halted = match commands.getLast? with
      | none => total.halted
      | some last => decide (last = .step) && p'.console.machine.halted := by
  induction commands generalizing p total with
  | nil =>
    cases h
    rfl
  | cons c commands ih =>
    obtain ⟨first, behind, done, rest⟩ := exists_of_actAll_cons h
    rw [ih rest]
    cases commands with
    | cons next commands => rfl
    | nil =>
      cases rest
      show first.halted = (decide (c = .step) && p'.console.machine.halted)
      by_cases step : c = .step
      · subst step
        exact (reported_of_handle_step done).halted
      · rw [report_of_handle done step, decide_eq_false step]
        rfl

end Panel

/-! ## 3. Polls -/

namespace Controller

/-- What the report of a poll says about the commands that the poll has carried out. -/
structure PollReported (c : Controller) (commands : List Command) (report : BatchReport)
    (c' : Controller) : Prop where
  cycles : report.cycles =
    UInt32.ofNat ((c.panel.attempts (commands.map .command)).countP Cpu.runsHere)
  exact : commands.count .step < 0x100000000 → report.cycles.toNat =
    (c.panel.attempts (commands.map .command)).countP Cpu.runsHere
  redrawn : report.redrawn = true ↔ c.panel.DrawsAmong commands
  halted : report.halted = true ↔
    commands.getLast? = some .step ∧ c'.panel.console.machine.halted = true

variable {c c' : Controller} {commands : List Command} {report : BatchReport}

theorem Polls.reported (h : c.Polls commands report c') : c.PollReported commands report c' := by
  have count := Panel.spent_eq_countP h.handled
  have cycles : report.cycles = UInt32.ofNat (c.panel.spent (commands.map .command)) :=
    (Panel.cycles_of_actAll h.handled).trans (UInt32.zero_add _)
  have few := c.panel.spent_commands_le commands
  constructor
  case cycles => rw [cycles, count]
  case exact =>
    intro fits
    rw [cycles, UInt32.toNat_ofNat_of_lt' (Nat.lt_of_le_of_lt few fits), count]
  case redrawn =>
    rw [Panel.redrawn_of_actAll h.handled]
    exact ⟨fun drawn => drawn.resolve_left nofun, .inr⟩
  case halted =>
    rw [Panel.halted_of_actAll h.handled]
    cases commands.getLast? with
    | none => exact ⟨nofun, fun both => nomatch both.1⟩
    | some last =>
      rw [Bool.and_eq_true, decide_eq_true_iff, Option.some.injEq]

/-- **Reports are true, but for the halt behind other commands.** A step and a batch report the
    cycles that they do, whether they draw, and whether the processor is halted behind them. A poll
    reports the cycles of its single steps, modulo the size of a machine word, and whether one of
    them draws. It says that the processor is halted only if it is; of a halted processor it says so
    if its last command was a single step, and not otherwise. -/
theorem reports_true (c : Controller) :
    (∀ report c', c.poll = (.ok report, c') →
      ∃ commands, c.Polls commands report c' ∧ c.PollReported commands report c') ∧
    (∀ (p p' : Panel) report, p.step = (.ok report, p') →
      p.console.machine.Reported 1 report p'.console.machine) ∧
    ∀ (p p' : Panel) report, p.runOwnBatch = (.ok report, p') →
      p.console.machine.Reported p.console.machine.batchLength.toNat report
        p'.console.machine := by
  refine ⟨fun report c' polled => ?_, fun p p' report done => Panel.reported_of_runBatch done,
    fun p p' report done => Panel.reported_of_runBatch done⟩
  rcases poll_cases c with ⟨commands, report', c'', polls⟩ | ⟨commands, last, e, c'', fails⟩
  · cases polls.poll_eq.symm.trans polled
    exact ⟨commands, polls, polls.reported⟩
  · cases fails.poll_eq.symm.trans polled

/-- A panel as power comes on. Memory holds no program, so that the first cycle halts it. -/
def blankPanel : Panel := ⟨⟨.powerOn, .blank none⟩, .fast, false, false⟩

/-- A poll of the blank panel. -/
theorem exists_polls_blankPanel {queue : List Command} {report : BatchReport}
    (handled : (blankPanel.actAll .none (queue.map .command)).1.toOption = some report)
    (halt : (blankPanel.actAll .none (queue.map .command)).2.console.machine.halted = true) :
    ∃ p, (⟨blankPanel, .awaiting queue [] 1⟩ : Controller).Polls queue report
        ⟨p, .awaiting [] [] 1⟩ ∧ p.console.machine.halted = true := by
  exact ⟨_, polls_awaiting [] 1 (eq_ok_of_toOption handled), halt⟩

/-- A step that halts the processor is reported in full. -/
theorem reports_true_powerOn :
    ∃ (c c' : Controller) (report : BatchReport), c.channel.queue = [.step] ∧
      c.poll = (.ok report, c') ∧ report.cycles = 1 ∧ report.halted = true ∧
      c'.panel.console.machine.halted = true := by
  have polled : ∃ p, (⟨blankPanel, .awaiting [.step] [] 1⟩ : Controller).Polls [.step]
      ⟨1, false, true⟩ ⟨p, .awaiting [] [] 1⟩ ∧ p.console.machine.halted = true :=
    exists_polls_blankPanel (by decide +kernel) (by decide +kernel)
  obtain ⟨p, polls, -⟩ := polled
  obtain ⟨told, -⟩ := reports_true ⟨blankPanel, .awaiting [.step] [] 1⟩
  obtain ⟨commands, -, reported⟩ := told _ _ polls.poll_eq
  exact ⟨_, _, _, rfl, polls.poll_eq, rfl, rfl, (reported.halted.mp rfl).2⟩

/-- **A key released behind it hides the halt**: the poll reports a processor that is not halted. So
    does the next poll, which finds no command. -/
theorem poll_hides_halt :
    ∃ (c c' : Controller) (report report' : BatchReport), c.channel.queue = [.step, .release] ∧
      c.poll = (.ok report, c') ∧ report.cycles = 1 ∧ report.halted = false ∧
      c'.poll = (.ok report', c') ∧ report'.halted = false ∧
      c'.panel.console.machine.halted = true := by
  have polled : ∃ p, (⟨blankPanel, .awaiting [.step, .release] [] 1⟩ : Controller).Polls
      [.step, .release] ⟨1, false, false⟩ ⟨p, .awaiting [] [] 1⟩ ∧
      p.console.machine.halted = true :=
    exists_polls_blankPanel (by decide +kernel) (by decide +kernel)
  obtain ⟨p, polls, halt⟩ := polled
  have again : (⟨p, .awaiting [] [] 1⟩ : Controller).Polls [] .none ⟨p, .awaiting [] [] 1⟩ :=
    polls_awaiting [] 1 rfl
  exact ⟨_, _, _, _, rfl, polls.poll_eq, rfl, rfl, again.poll_eq, rfl, halt⟩

end Controller
end Retro24
