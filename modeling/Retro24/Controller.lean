/-
  File:      Retro24/Controller.lean
  Subject:   The run loop: batches of cycles under the control of commands.

  * `Panel`: a console with its clock rate, its pause latch and its stop latch; `Panel.handle`
    carries out one command.
  * `Controller`: a panel and the channel its commands come through; `Controller.poll` takes every
    command of the queue, and a command that fails leaves those behind it in the queue.
  * `Controller.turn`: one turn of the run loop: the queue is polled; then a stop ends the run, a
    pause waits for a command, a halt or a spent budget ends the run, and otherwise a batch runs.
  * `Controller.runFor`, `Controller.run?`: turns until the run ends. There is no answer for a run
    that goes on or waits for ever.

  Each frame that is drawn on request is shown to an observer, who keeps a state of its own.
-/
import Retro24.Channel
import Retro24.Console

namespace Retro24

/-! ## 1. The panel -/

/-- A console and its latches. -/
structure Panel where
  console : Console
  speed : ClockRate
  paused : Bool
  /-- A stop was asked for and has not ended a run yet. -/
  stopPending : Bool

namespace Panel

/-- The frame on the screen. -/
@[inline] def frame (p : Panel) : Frame := p.console.machine.frame

/-- The panel with another clock rate; a change is reported. -/
def setRate (p : Panel) (speed : ClockRate) : Panel :=
  let journal := p.console.journal
  { p with
    console :=
      { p.console with
        journal := if speed = p.speed then journal else journal.note (.clockRate speed) }
    speed }

/-- A batch of cycles and then a picture if one is asked for. -/
@[inline] def runBatch (p : Panel) (cycles : UInt32) : Except MachineError BatchReport × Panel :=
  match p with
  | ⟨console, speed, paused, stopPending⟩ =>
    match console.runBatch cycles with
    | (result, console) => (result, ⟨console, speed, paused, stopPending⟩)

/-- One cycle, or none when the processor is halted. -/
def step (p : Panel) : Except MachineError BatchReport × Panel := p.runBatch 1

/-- One batch of the machine's own length. -/
def runOwnBatch (p : Panel) : Except MachineError BatchReport × Panel :=
  p.runBatch p.console.machine.batchLength

/-- The panel with an entry in its journal. -/
def note (p : Panel) (e : Entry) : Panel :=
  { p with console := { p.console with journal := p.console.journal.note e } }

/-- The effect of a command. -/
def perform (p : Panel) : Command → Except MachineError BatchReport × Panel
  | .pause => (.ok .none, { p with paused := true })
  | .resume => (.ok .none, { p with paused := false })
  | .step => p.step
  | .toggleClockRate => (.ok .none, p.setRate p.speed.other)
  | .setClockRate speed => (.ok .none, p.setRate speed)
  | .press key => (.ok .none, { p with console := p.console.withMachine (·.press key) })
  | .release => (.ok .none, { p with console := p.console.withMachine (·.release) })
  | .softReset => (.ok .none, { p with console := p.console.softReset })
  | .hardReset => (.ok .none, { p with console := p.console.hardReset })
  | .reload =>
    match p.console.reload with
    | (.error e, console) => (.error e, { p with console })
    | (.ok _, console) => (.ok .none, { p with console })
  | .stop => (.ok .none, { p with stopPending := true })

/-- A command carried out and reported. Only a single step has something in its report. -/
def handle (p : Panel) (c : Command) : Except MachineError BatchReport × Panel :=
  (p.note (.command c)).perform c

end Panel

/-! ## 2. Polling -/

/-- The reports of two commands in a row as one: the later one tells whether the processor is
    halted. The cycles are summed in a word of 32 bits, which wraps behind 2^32 single steps. -/
def BatchReport.andThen (earlier later : BatchReport) : BatchReport :=
  ⟨earlier.cycles + later.cycles, earlier.redrawn || later.redrawn, later.halted⟩

/-- A panel and the channel its commands come through. -/
structure Controller where
  panel : Panel
  channel : Channel

namespace Controller

/-- A running console that nobody has sent a command yet, and its one handle. -/
def start (console : Console) : Controller := ⟨⟨console, .fast, false, false⟩, .fresh⟩

instance : Inhabited Controller := ⟨start default⟩

/-- The commands of a channel carried out one after another until none is there, on top of a report
    of earlier ones. -/
def pollFrom (total : BatchReport) (panel : Panel) (channel : Channel) :
    Except MachineError BatchReport × Controller :=
  match _h : channel.look with
  | (none, channel) => (.ok total, ⟨panel, channel⟩)
  | (some command, channel) =>
    match panel.handle command with
    | (.error e, panel) => (.error e, ⟨panel, channel⟩)
    | (.ok report, panel) => pollFrom (total.andThen report) panel channel
termination_by channel.pending
decreasing_by
  have := Channel.look_pending _h
  omega

/-- Every command of the queue carried out. -/
def poll (c : Controller) : Except MachineError BatchReport × Controller :=
  match c with
  | ⟨panel, channel⟩ => pollFrom .none panel channel

/-! ## 3. Runs -/

/-- What a run has done so far, with the observer's state. -/
structure Progress (σ : Type) where
  cycles : UInt64
  frames : UInt64
  shown : σ

/-- The progress behind a report; a frame drawn on request is shown. -/
@[inline] def Progress.add {σ : Type} (p : Progress σ) (observe : σ → Frame → σ)
    (report : BatchReport) (frame : Frame) : Progress σ :=
  ⟨p.cycles + report.cycles.toUInt64, if report.redrawn then p.frames + 1 else p.frames,
    if report.redrawn then observe p.shown frame else p.shown⟩

/-- What a run did. -/
structure RunReport where
  cycles : UInt64
  frames : UInt64
  reason : RunEnd
  deriving DecidableEq

/-- What comes of one turn. -/
inductive Turn (σ : Type) where
  /-- The run goes on. -/
  | next (progress : Progress σ) (c : Controller)
  /-- The run is over. -/
  | over (result : Except MachineError RunEnd) (progress : Progress σ) (c : Controller)
  /-- The run waits for a command that never comes. -/
  | silent

/-- The cycles that a budget leaves. -/
def remaining (budget spent : UInt64) : UInt64 := if spent < budget then budget - spent else 0

/-- The cycles of the next batch, or none when the budget is spent. -/
def batchSize (batchLength : UInt32) (budget : Option UInt64) (spent : UInt64) : Option UInt32 :=
  match budget with
  | none => some batchLength
  | some budget =>
    let left := remaining budget spent
    if left = 0 then none else some (min batchLength.toUInt64 left).toUInt32

/-- The part of a turn behind the poll, when no command is to be waited for. -/
@[specialize] def turnRunning {σ : Type} (observe : σ → Frame → σ) (budget : Option UInt64)
    (progress : Progress σ) (panel : Panel) (channel : Channel) : Turn σ :=
  if panel.console.machine.halted then .over (.ok .halted) progress ⟨panel, channel⟩
  else
    match batchSize panel.console.machine.batchLength budget progress.cycles with
    | none => .over (.ok .budgetExhausted) progress ⟨panel, channel⟩
    | some cycles =>
      match panel.runBatch cycles with
      | (.error e, panel) => .over (.error e) progress ⟨panel, channel⟩
      | (.ok report, panel) => .next (progress.add observe report panel.frame) ⟨panel, channel⟩

/-- The part of a turn behind the poll, when the panel is paused. -/
@[specialize] def turnPaused {σ : Type} (observe : σ → Frame → σ) (progress : Progress σ)
    (panel : Panel) (channel : Channel) : Turn σ :=
  match channel.wait with
  | (.silent, _) => .silent
  | (.closed, channel) => .over (.ok .stopped) progress ⟨panel, channel⟩
  | (.command command, channel) =>
    match panel.handle command with
    | (.error e, panel) => .over (.error e) progress ⟨panel, channel⟩
    | (.ok report, panel) => .next (progress.add observe report panel.frame) ⟨panel, channel⟩

/-- One turn of the run loop. -/
@[specialize] def turn {σ : Type} (observe : σ → Frame → σ) (budget : Option UInt64)
    (progress : Progress σ) (c : Controller) : Turn σ :=
  match c.poll with
  | (.error e, c) => .over (.error e) progress c
  | (.ok report, ⟨panel, channel⟩) =>
    let progress := progress.add observe report panel.frame
    if panel.stopPending then
      .over (.ok .stopped) progress ⟨{ panel with stopPending := false }, channel⟩
    else if panel.paused then turnPaused observe progress panel channel
    else turnRunning observe budget progress panel channel

/-- Turns until the run ends, at most as many as `turns` says. -/
@[specialize] def turnsFrom {σ : Type} (observe : σ → Frame → σ) (budget : Option UInt64)
    (progress : Progress σ) (c : Controller) :
    Nat → Option (Except MachineError RunEnd × Progress σ × Controller)
  | 0 => none
  | turns + 1 =>
    match turn observe budget progress c with
    | .next progress c => turnsFrom observe budget progress c turns
    | .over result progress c => some (result, progress, c)
    | .silent => none

/-- A run of at most `turns` turns: its summary or what failed, the observer's state and the
    controller. -/
@[specialize] def runFor {σ : Type} (turns : Nat) (observe : σ → Frame → σ) (start : σ)
    (budget : Option UInt64) (c : Controller) :
    Option (Except MachineError RunReport × σ × Controller) :=
  match turnsFrom observe budget ⟨0, 0, start⟩ c turns with
  | none => none
  | some (.error e, progress, c) => some (.error e, progress.shown, c)
  | some (.ok reason, progress, ⟨panel, channel⟩) =>
    some (.ok ⟨progress.cycles, progress.frames, reason⟩, progress.shown,
      ⟨panel.note (.runEnded reason progress.cycles progress.frames), channel⟩)

/-- More turns than a run takes: under a budget, one for each cycle and for each command, and one
    at the end; without a budget, more than can be waited for. -/
def enoughTurns (budget : Option UInt64) (c : Controller) : Nat :=
  match budget with
  | some budget => budget.toNat + c.channel.pending + 2
  | none => 0x4000000000000000

/-- A run to its end. -/
@[inline] def run? {σ : Type} (observe : σ → Frame → σ) (start : σ) (budget : Option UInt64)
    (c : Controller) : Option (Except MachineError RunReport × σ × Controller) :=
  runFor (enoughTurns budget c) observe start budget c

end Controller

end Retro24
