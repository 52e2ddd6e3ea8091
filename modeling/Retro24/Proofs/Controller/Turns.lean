/-
  File:      Retro24/Proofs/Controller/Turns.lean
  Subject:   Everything that a poll, a turn and a run of the loop can do.

  * `Channel.Takes`, `Controller.Polls`, `Controller.PollFails`: the commands that a poll takes.
    `poll_cases`: it carries out all that there are, or fails at one.
  * `Controller.Turned`: the ways in which a turn goes, each with its stretches of deeds, which are
    the commands of the poll, and then the command waited for (`Waited`) or the batch (`Ran`).
    `turned_iff`: a turn goes in one of them.
  * `Controller.Course`: the turns of a run up to its end, with the stretches of all of them.
  * `Controller.Ends`: a run ends, and with what. `ends_iff`: it does so along a course;
    `ends_unique`: it ends in one way.
-/
import Retro24.Proofs.Controller.Deeds

namespace Retro24

/-! ## 1. Polls -/

/-- The commands that looks at a channel take one after another, and the channel behind them. -/
inductive Channel.Takes : Channel → List Command → Channel → Prop where
  | nil (ch : Channel) : Takes ch [] ch
  | cons {ch ch' ch'' : Channel} {c : Command} {cs : List Command}
      (first : ch.look = (some c, ch')) (rest : Takes ch' cs ch'') : Takes ch (c :: cs) ch''

/-- A queue, and commands that are sent one at a time while the machine waits. -/
def Channel.awaiting (queue late : List Command) (handles : Nat) : Channel :=
  ⟨queue, late.map .whenWaiting, handles⟩

@[simp]
theorem Channel.look_awaiting_nil (late : List Command) (handles : Nat) :
    (awaiting [] late handles).look = (none, awaiting [] late handles) := by
  cases late <;> rfl

@[simp]
theorem Channel.look_awaiting_cons (c : Command) (queue late : List Command) (handles : Nat) :
    (awaiting (c :: queue) late handles).look = (some c, awaiting queue late handles) := by
  cases late <;> rfl

theorem Channel.takes_awaiting (cs queue late : List Command) (handles : Nat) :
    (awaiting (cs ++ queue) late handles).Takes cs (awaiting queue late handles) := by
  induction cs with
  | nil => exact .nil _
  | cons c cs ih => exact .cons (look_awaiting_cons c (cs ++ queue) late handles) ih

namespace Controller

/-- A poll that takes some commands, all that there are, and carries them out. -/
structure Polls (c : Controller) (commands : List Command) (report : BatchReport)
    (c' : Controller) : Prop where
  taken : ∃ ch, c.channel.Takes commands ch ∧ ch.look = (none, c'.channel)
  handled : c.panel.actAll .none (commands.map .command) = (.ok report, c'.panel)

/-- A poll that carries out some commands and fails at the one behind them. -/
structure PollFails (c : Controller) (commands : List Command) (last : Command) (e : MachineError)
    (c' : Controller) : Prop where
  taken : ∃ ch, c.channel.Takes commands ch ∧ ch.look = (some last, c'.channel)
  handled : ∃ report p, c.panel.actAll .none (commands.map .command) = (.ok report, p) ∧
    p.handle last = (.error e, c'.panel)

theorem pollFrom_none {ch ch' : Channel} (total : BatchReport) (p : Panel)
    (h : ch.look = (none, ch')) : pollFrom total p ch = (.ok total, ⟨p, ch'⟩) := by
  rw [pollFrom]
  split
  · next h' =>
    rw [h] at h'
    cases h'
    rfl
  · next h' =>
    rw [h] at h'
    cases h'

theorem pollFrom_error {ch ch' : Channel} {c : Command} {p p' : Panel} {e : MachineError}
    (total : BatchReport) (h : ch.look = (some c, ch')) (failed : p.handle c = (.error e, p')) :
    pollFrom total p ch = (.error e, ⟨p', ch'⟩) := by
  rw [pollFrom]
  split
  · next h' =>
    rw [h] at h'
    cases h'
  · next h' =>
    rw [h] at h'
    cases h'
    simp only [failed]

theorem pollFrom_ok {ch ch' : Channel} {c : Command} {p p' : Panel} {report : BatchReport}
    (total : BatchReport) (h : ch.look = (some c, ch')) (done : p.handle c = (.ok report, p')) :
    pollFrom total p ch = pollFrom (total.andThen report) p' ch' := by
  rw [pollFrom]
  split
  · next h' =>
    rw [h] at h'
    cases h'
  · next h' =>
    rw [h] at h'
    cases h'
    simp only [done]

/-- A poll goes on behind commands that are carried out. -/
theorem pollFrom_takes {ch ch' : Channel} {cs : List Command} {p p' : Panel}
    {total report : BatchReport} (taken : ch.Takes cs ch')
    (handled : p.actAll total (cs.map .command) = (.ok report, p')) :
    pollFrom total p ch = pollFrom report p' ch' := by
  induction taken generalizing p total with
  | nil ch =>
    cases handled
    rfl
  | @cons ch _ _ c cs first rest ih =>
    obtain ⟨earlier, behind, done, others⟩ := Panel.exists_of_actAll_cons handled
    rw [pollFrom_ok total first done]
    exact ih others

/-- A poll takes commands until there is none or one fails. -/
theorem exists_takes (total : BatchReport) (p : Panel) (ch : Channel) :
    ∃ cs ch' report p', ch.Takes cs ch' ∧
      p.actAll total (cs.map .command) = (.ok report, p') ∧
      ((∃ ch'', ch'.look = (none, ch'')) ∨
        ∃ last ch'' e p'', ch'.look = (some last, ch'') ∧ p'.handle last = (.error e, p'')) := by
  -- recursion on the commands that may still be taken, as the poll itself recurs
  rcases looked : ch.look with ⟨_ | c, ch'⟩
  · exact ⟨[], ch, total, p, .nil ch, rfl, .inl ⟨ch', looked⟩⟩
  rcases done : p.handle c with ⟨(e | report), p'⟩
  · exact ⟨[], ch, total, p, .nil ch, rfl, .inr ⟨c, ch', e, p', looked, done⟩⟩
  obtain ⟨cs, ch'', total', p'', taken, handled, last⟩ :=
    exists_takes (total.andThen report) p' ch'
  refine ⟨c :: cs, ch'', total', p'', .cons looked taken, ?_, last⟩
  rw [List.map_cons, Panel.actAll_cons_ok (d := .command c) _ done]
  exact handled
termination_by ch.pending
decreasing_by
  have := Channel.look_pending looked
  omega

theorem Polls.poll_eq {c c' : Controller} {commands : List Command} {report : BatchReport}
    (h : c.Polls commands report c') : c.poll = (.ok report, c') := by
  obtain ⟨⟨ch, taken, empty⟩, handled⟩ := h
  exact (pollFrom_takes taken handled).trans (pollFrom_none report c'.panel empty)

theorem PollFails.poll_eq {c c' : Controller} {commands : List Command} {last : Command}
    {e : MachineError} (h : c.PollFails commands last e c') : c.poll = (.error e, c') := by
  obtain ⟨⟨ch, taken, looked⟩, report, p, handled, failed⟩ := h
  exact (pollFrom_takes taken handled).trans (pollFrom_error report looked failed)

theorem polls_awaiting {queue : List Command} {p p' : Panel} {report : BatchReport}
    (late : List Command) (handles : Nat)
    (handled : p.actAll .none (queue.map .command) = (.ok report, p')) :
    (⟨p, .awaiting queue late handles⟩ : Controller).Polls queue report
      ⟨p', .awaiting [] late handles⟩ := by
  refine ⟨⟨_, ?_, Channel.look_awaiting_nil late handles⟩, handled⟩
  have taken := Channel.takes_awaiting queue [] late handles
  rwa [List.append_nil] at taken

theorem pollFails_awaiting {cs : List Command} {last : Command} {p p' p'' : Panel}
    {report : BatchReport} {e : MachineError} (queue late : List Command) (handles : Nat)
    (handled : p.actAll .none (cs.map .command) = (.ok report, p'))
    (failed : p'.handle last = (.error e, p'')) :
    (⟨p, .awaiting (cs ++ last :: queue) late handles⟩ : Controller).PollFails cs last e
      ⟨p'', .awaiting queue late handles⟩ :=
  ⟨⟨_, Channel.takes_awaiting cs (last :: queue) late handles,
    Channel.look_awaiting_cons last queue late handles⟩, report, p', handled, failed⟩

/-- **A poll carries out all commands that there are, or those in front of one that fails.** -/
theorem poll_cases (c : Controller) :
    (∃ commands report c', c.Polls commands report c') ∨
      ∃ commands last e c', c.PollFails commands last e c' := by
  obtain ⟨cs, ch, report, p, taken, handled, ⟨ch', empty⟩ | ⟨last, ch', e, p', looked, failed⟩⟩ :=
    exists_takes .none c.panel c.channel
  · exact .inl ⟨cs, report, ⟨p, ch'⟩, ⟨ch, taken, empty⟩, handled⟩
  · exact .inr ⟨cs, last, e, ⟨p', ch'⟩, ⟨ch, taken, looked⟩, report, p, handled, failed⟩

end Controller

/-! ## 2. Turns -/

namespace Controller

variable {σ : Type}

/-- The progress behind a number of reports. -/
def addAll (progress : Progress σ) (observe : σ → Frame → σ)
    (reports : List (BatchReport × Frame)) : Progress σ :=
  reports.foldl (fun progress done => progress.add observe done.1 done.2) progress

/-- Nothing happens in a poll of an empty queue. -/
@[simp]
theorem add_none (progress : Progress σ) (observe : σ → Frame → σ) (frame : Frame) :
    progress.add observe .none frame = progress := by
  show (⟨progress.cycles + 0, progress.frames, progress.shown⟩ : Progress σ) = progress
  rw [UInt64.add_zero]

/-- How a turn of a paused panel goes behind the poll, with the deeds of it. -/
inductive Waited (observe : σ → Frame → σ) (progress : Progress σ) (p : Panel) (ch : Channel) :
    List (List Deed) → Turn σ → Prop where
  | silent {ch' : Channel} (received : ch.wait = (.silent, ch')) :
      Waited observe progress p ch [] .silent
  | closed {ch' : Channel} (received : ch.wait = (.closed, ch')) :
      Waited observe progress p ch [] (.over (.ok .stopped) progress ⟨p, ch'⟩)
  | failed {ch' : Channel} {c : Command} {e : MachineError} {p' : Panel}
      (received : ch.wait = (.command c, ch')) (handled : p.handle c = (.error e, p')) :
      Waited observe progress p ch [[.command c]] (.over (.error e) progress ⟨p', ch'⟩)
  | done {ch' : Channel} {c : Command} {report : BatchReport} {p' : Panel}
      (received : ch.wait = (.command c, ch')) (handled : p.handle c = (.ok report, p')) :
      Waited observe progress p ch [[.command c]]
        (.next (progress.add observe report p'.frame) ⟨p', ch'⟩)

/-- How a turn of a panel that is not paused goes behind the poll, with the deeds of it. -/
inductive Ran (observe : σ → Frame → σ) (budget : Option UInt64) (progress : Progress σ)
    (p : Panel) (ch : Channel) : List (List Deed) → Turn σ → Prop where
  | halted (halt : p.console.machine.halted = true) :
      Ran observe budget progress p ch [] (.over (.ok .halted) progress ⟨p, ch⟩)
  | spent (awake : p.console.machine.halted = false)
      (size : batchSize p.console.machine.batchLength budget progress.cycles = none) :
      Ran observe budget progress p ch [] (.over (.ok .budgetExhausted) progress ⟨p, ch⟩)
  | failed {cycles : UInt32} {e : MachineError} {p' : Panel}
      (awake : p.console.machine.halted = false)
      (size : batchSize p.console.machine.batchLength budget progress.cycles = some cycles)
      (batch : p.runBatch cycles = (.error e, p')) :
      Ran observe budget progress p ch [[.batch cycles]] (.over (.error e) progress ⟨p', ch⟩)
  | done {cycles : UInt32} {report : BatchReport} {p' : Panel}
      (awake : p.console.machine.halted = false)
      (size : batchSize p.console.machine.batchLength budget progress.cycles = some cycles)
      (batch : p.runBatch cycles = (.ok report, p')) :
      Ran observe budget progress p ch [[.batch cycles]]
        (.next (progress.add observe report p'.frame) ⟨p', ch⟩)

/-- How a turn goes, with its stretches of deeds: the commands of the poll, and behind them the
    command that was waited for or the batch, if the turn gets there. -/
inductive Turned (observe : σ → Frame → σ) (budget : Option UInt64) (progress : Progress σ)
    (c : Controller) : List (List Deed) → Turn σ → Prop where
  | failed {commands : List Command} {last : Command} {e : MachineError} {c' : Controller}
      (polled : c.PollFails commands last e c') :
      Turned observe budget progress c [(commands ++ [last]).map .command]
        (.over (.error e) progress c')
  | stopped {commands : List Command} {report : BatchReport} {p : Panel} {ch : Channel}
      (polled : c.Polls commands report ⟨p, ch⟩) (stop : p.stopPending = true) :
      Turned observe budget progress c [commands.map .command]
        (.over (.ok .stopped) (progress.add observe report p.frame)
          ⟨{ p with stopPending := false }, ch⟩)
  | waited {commands : List Command} {report : BatchReport} {p : Panel} {ch : Channel}
      {stretches : List (List Deed)} {t : Turn σ}
      (polled : c.Polls commands report ⟨p, ch⟩) (stop : p.stopPending = false)
      (pause : p.paused = true)
      (rest : Waited observe (progress.add observe report p.frame) p ch stretches t) :
      Turned observe budget progress c (commands.map .command :: stretches) t
  | ran {commands : List Command} {report : BatchReport} {p : Panel} {ch : Channel}
      {stretches : List (List Deed)} {t : Turn σ}
      (polled : c.Polls commands report ⟨p, ch⟩) (stop : p.stopPending = false)
      (pause : p.paused = false)
      (rest : Ran observe budget (progress.add observe report p.frame) p ch stretches t) :
      Turned observe budget progress c (commands.map .command :: stretches) t

variable {observe : σ → Frame → σ} {budget : Option UInt64} {progress : Progress σ} {p : Panel}
  {ch : Channel}

theorem waited_iff {t : Turn σ} :
    turnPaused observe progress p ch = t ↔
      ∃ stretches, Waited observe progress p ch stretches t := by
  unfold turnPaused
  constructor
  · rintro rfl
    rcases received : ch.wait with ⟨c | _ | _, ch'⟩
    · rcases handled : p.handle c with ⟨(e | report), p'⟩
      · simp only [handled]
        exact ⟨_, .failed received handled⟩
      · simp only [handled]
        exact ⟨_, .done received handled⟩
    · exact ⟨_, .closed received⟩
    · exact ⟨_, .silent received⟩
  · rintro ⟨_, went⟩
    cases went with
    | silent received => simp only [received]
    | closed received => simp only [received]
    | failed received handled => simp only [received, handled]
    | done received handled => simp only [received, handled]

theorem ran_iff {t : Turn σ} :
    turnRunning observe budget progress p ch = t ↔
      ∃ stretches, Ran observe budget progress p ch stretches t := by
  unfold turnRunning
  constructor
  · rintro rfl
    split
    · next halt => exact ⟨_, .halted halt⟩
    next halt =>
    have awake := Bool.eq_false_iff.mpr halt
    cases size : batchSize p.console.machine.batchLength budget progress.cycles with
    | none => exact ⟨_, .spent awake size⟩
    | some cycles =>
      rcases batch : p.runBatch cycles with ⟨(e | report), p'⟩
      · simp only [batch]
        exact ⟨_, .failed awake size batch⟩
      · simp only [batch]
        exact ⟨_, .done awake size batch⟩
  · rintro ⟨_, went⟩
    cases went with
    | halted halt => rw [if_pos halt]
    | spent awake size => simp only [awake, size, Bool.false_eq_true, if_false]
    | failed awake size batch => simp only [awake, size, batch, Bool.false_eq_true, if_false]
    | done awake size batch => simp only [awake, size, batch, Bool.false_eq_true, if_false]

/-- **A turn goes in one of these ways.** -/
theorem turned_iff {c : Controller} {t : Turn σ} :
    turn observe budget progress c = t ↔
      ∃ stretches, Turned observe budget progress c stretches t := by
  constructor
  · rintro rfl
    rcases poll_cases c with ⟨commands, report, ⟨p, ch⟩, polled⟩ | ⟨commands, last, e, c', polled⟩
    · simp only [turn, polled.poll_eq]
      split
      · next stop => exact ⟨_, .stopped polled stop⟩
      next stop =>
      split
      · next pause =>
        obtain ⟨stretches, rest⟩ := waited_iff.mp rfl
        exact ⟨_, .waited polled (Bool.eq_false_iff.mpr stop) pause rest⟩
      · next pause =>
        obtain ⟨stretches, rest⟩ := ran_iff.mp rfl
        exact ⟨_, .ran polled (Bool.eq_false_iff.mpr stop)
          (Bool.eq_false_iff.mpr pause) rest⟩
    · simp only [turn, polled.poll_eq]
      exact ⟨_, .failed polled⟩
  · rintro ⟨_, went⟩
    cases went with
    | failed polled => simp only [turn, polled.poll_eq]
    | stopped polled stop => simp only [turn, polled.poll_eq, stop, if_true]
    | waited polled stop pause rest =>
      simp only [turn, polled.poll_eq, stop, pause, Bool.false_eq_true, if_false, if_true]
      exact waited_iff.mpr ⟨_, rest⟩
    | ran polled stop pause rest =>
      simp only [turn, polled.poll_eq, stop, pause, Bool.false_eq_true, if_false]
      exact ran_iff.mpr ⟨_, rest⟩

/-! ## 3. Runs -/

/-- The turns of a run that ends, with the stretches of deeds of all of them. -/
inductive Course (observe : σ → Frame → σ) (budget : Option UInt64) :
    Progress σ → Controller → List (List Deed) → Except MachineError RunEnd → Progress σ →
      Controller → Prop where
  | last {progress progress' : Progress σ} {c c' : Controller} {stretches : List (List Deed)}
      {result : Except MachineError RunEnd}
      (went : Turned observe budget progress c stretches (.over result progress' c')) :
      Course observe budget progress c stretches result progress' c'
  | more {progress next progress' : Progress σ} {c c₁ c' : Controller}
      {stretches others : List (List Deed)} {result : Except MachineError RunEnd}
      (went : Turned observe budget progress c stretches (.next next c₁))
      (rest : Course observe budget next c₁ others result progress' c') :
      Course observe budget progress c (stretches ++ others) result progress' c'

variable {progress' : Progress σ} {c c' : Controller} {result : Except MachineError RunEnd}
  {stretches : List (List Deed)}

/-- A turn behind which the run goes on has done its deeds. -/
theorem Turned.does_next {next : Progress σ} {c₁ : Controller}
    (went : Turned observe budget progress c stretches (.next next c₁)) :
    ∃ reports, c.panel.Does stretches reports c₁.panel ∧
      next = addAll progress observe reports := by
  cases went with
  | waited polled _ _ rest =>
    cases rest with
    | done _ handled =>
      have second := Panel.actAll_singleton (d := .command _) handled
      exact ⟨_, .cons polled.handled (.cons second (.nil _)), rfl⟩
  | ran polled _ _ rest =>
    cases rest with
    | done _ _ batch =>
      have second := Panel.actAll_singleton (d := .batch _) batch
      exact ⟨_, .cons polled.handled (.cons second (.nil _)), rfl⟩

/-- A turn that ends a run without an error has done its deeds. -/
theorem Turned.does_over {reason : RunEnd}
    (went : Turned observe budget progress c stretches (.over (.ok reason) progress' c')) :
    ∃ reports p, c.panel.Does stretches reports p ∧ c'.panel = { p with stopPending := false } ∧
      progress' = addAll progress observe reports := by
  cases went with
  | stopped polled _ => exact ⟨_, _, .cons polled.handled (.nil _), rfl, rfl⟩
  | waited polled stop _ rest =>
    cases rest with
    | closed _ => exact ⟨_, _, .cons polled.handled (.nil _), by rw [← stop], rfl⟩
  | ran polled stop _ rest =>
    cases rest with
    | halted _ => exact ⟨_, _, .cons polled.handled (.nil _), by rw [← stop], rfl⟩
    | spent _ _ => exact ⟨_, _, .cons polled.handled (.nil _), by rw [← stop], rfl⟩

/-- **A run that ends without an error has done the deeds of its turns.** -/
theorem Course.does {reason : RunEnd}
    (course : Course observe budget progress c stretches (.ok reason) progress' c') :
    ∃ reports p, c.panel.Does stretches reports p ∧ c'.panel = { p with stopPending := false } ∧
      progress' = addAll progress observe reports := by
  -- the induction is on the turns, so that the result must be a variable
  generalize ended : (.ok reason : Except MachineError RunEnd) = result at course
  induction course with
  | last went =>
    cases ended
    exact went.does_over
  | more went _ ih =>
    obtain ⟨reports, done, rfl⟩ := went.does_next
    obtain ⟨later, p, rest, behind, rfl⟩ := ih ended
    exact ⟨reports ++ later, p, done.append rest, behind, (List.foldl_append ..).symm⟩

theorem course_of_turnsFrom {turns : Nat}
    (h : turnsFrom observe budget progress c turns = some (result, progress', c')) :
    ∃ stretches, Course observe budget progress c stretches result progress' c' := by
  induction turns generalizing progress c with
  | zero => cases h
  | succ turns ih =>
    rw [turnsFrom] at h
    rcases went : turn observe budget progress c with ⟨next, c₁⟩ | ⟨result', last, c₁⟩ | _
    · rw [went] at h
      obtain ⟨stretches, first⟩ := turned_iff.mp went
      obtain ⟨others, rest⟩ := ih h
      exact ⟨_, .more first rest⟩
    · rw [went] at h
      cases h
      obtain ⟨stretches, first⟩ := turned_iff.mp went
      exact ⟨_, .last first⟩
    · rw [went] at h
      cases h

theorem Course.turnsFrom_eq (h : Course observe budget progress c stretches result progress' c') :
    ∃ turns, turnsFrom observe budget progress c turns = some (result, progress', c') := by
  induction h with
  | last went => exact ⟨1, by rw [turnsFrom, turned_iff.mpr ⟨_, went⟩]⟩
  | more went rest ih =>
    obtain ⟨turns, run⟩ := ih
    exact ⟨turns + 1, by rw [turnsFrom, turned_iff.mpr ⟨_, went⟩]; exact run⟩

/-- A run that has ended needs no more turns. -/
theorem turnsFrom_add {turns : Nat} {last : Except MachineError RunEnd × Progress σ × Controller}
    (h : turnsFrom observe budget progress c turns = some last) (more : Nat) :
    turnsFrom observe budget progress c (turns + more) = some last := by
  induction turns generalizing progress c with
  | zero => cases h
  | succ turns ih =>
    rw [Nat.succ_add, turnsFrom]
    rw [turnsFrom] at h
    rcases went : turn observe budget progress c with ⟨next, c₁⟩ | _ | _
    · rw [went] at h
      exact ih h
    · rw [went] at h
      exact h
    · rw [went] at h
      cases h

/-- What is left of a run at its end: its summary or what failed, the observer's state and the
    controller, with the end in its journal. -/
def conclude : Except MachineError RunEnd × Progress σ × Controller →
    Except MachineError RunReport × σ × Controller
  | (.error e, progress, c) => (.error e, progress.shown, c)
  | (.ok reason, progress, ⟨p, ch⟩) =>
    (.ok ⟨progress.cycles, progress.frames, reason⟩, progress.shown,
      ⟨p.note (.runEnded reason progress.cycles progress.frames), ch⟩)

theorem runFor_eq (turns : Nat) (start : σ) :
    runFor turns observe start budget c =
      (turnsFrom observe budget ⟨0, 0, start⟩ c turns).map conclude := by
  unfold runFor
  rcases turnsFrom observe budget ⟨0, 0, start⟩ c turns with _ | ⟨(e | reason), progress, p, ch⟩ <;>
    rfl

/-- A run ends, and with what. -/
def Ends (observe : σ → Frame → σ) (start : σ) (budget : Option UInt64) (c : Controller)
    (outcome : Except MachineError RunReport × σ × Controller) : Prop :=
  ∃ turns, runFor turns observe start budget c = some outcome

variable {start : σ} {outcome : Except MachineError RunReport × σ × Controller}

/-- **A run ends along the course of its turns.** -/
theorem ends_iff :
    Ends observe start budget c outcome ↔
      ∃ stretches result progress' c',
        Course observe budget ⟨0, 0, start⟩ c stretches result progress' c' ∧
          conclude (result, progress', c') = outcome := by
  constructor
  · rintro ⟨turns, run⟩
    rw [runFor_eq, Option.map_eq_some_iff] at run
    obtain ⟨⟨result, progress', c'⟩, run, concluded⟩ := run
    obtain ⟨stretches, course⟩ := course_of_turnsFrom run
    exact ⟨stretches, result, progress', c', course, concluded⟩
  · rintro ⟨stretches, result, progress', c', course, concluded⟩
    obtain ⟨turns, run⟩ := course.turnsFrom_eq
    exact ⟨turns, by rw [runFor_eq, run, Option.map_some, concluded]⟩

theorem Course.ends
    (course : Course observe budget ⟨0, 0, start⟩ c stretches result progress' c') :
    Ends observe start budget c (conclude (result, progress', c')) :=
  ends_iff.mpr ⟨_, _, _, _, course, rfl⟩

/-- A run ends in one way. -/
theorem ends_unique {other : Except MachineError RunReport × σ × Controller}
    (h : Ends observe start budget c outcome) (h' : Ends observe start budget c other) :
    outcome = other := by
  obtain ⟨turns, run⟩ := h
  obtain ⟨turns', run'⟩ := h'
  rw [runFor_eq, Option.map_eq_some_iff] at run run'
  obtain ⟨last, run, rfl⟩ := run
  obtain ⟨last', run', rfl⟩ := run'
  have more := turnsFrom_add run turns'
  rw [Nat.add_comm, turnsFrom_add run' turns] at more
  exact congrArg conclude (Option.some.inj more.symm)

end Controller
end Retro24
