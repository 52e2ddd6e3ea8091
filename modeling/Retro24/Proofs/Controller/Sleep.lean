/-
  File:      Retro24/Proofs/Controller/Sleep.lean
  Subject:   A halted machine under the control of commands that do not wake it.

  * `Command.wakes`: the two resets and the reload. `Channel.Calm`: no such command is queued or will
    come. `queue_settled_look`, `queue_settled_wait`: looks and waits take the front of all that will
    ever come.
  * `Panel.idles`: a deed that does not wake the machine succeeds, does no cycle and leaves the machine
    idle; `Panel.idles_all`: so do deeds one after another.
  * `Asleep`: halted, with a calm channel. `Passes.asleep`: it stays so from one moment to the next.
  * `Asleep.turned`: a turn that takes neither a pause nor a stop ends the run at the halt;
    `HaltsAtOnce`: so the run is over behind its first poll.
  * `Called`: everything that can be called meanwhile, with its reply. `Called.asleep` is the step,
    and `Calls.asleep` the induction over a sequence of calls.
  * `halting_absorbs`: all of it together.
-/
import Retro24.Proofs.Controller.Faults
import Retro24.Proofs.Controller.Order
import Retro24.Proofs.Machine.Latch

namespace Retro24

/-! ## 1. Commands and channels -/

/-- Whether a command may take the halt latch back. -/
def Command.wakes : Command → Bool
  | .softReset | .hardReset | .reload => true
  | _ => false

/-- Whether a deed does not. -/
def Deed.calm : Deed → Bool
  | .command c => !c.wakes
  | .batch _ => true

namespace Channel

variable {ch ch' : Channel}

/-- No command that is queued or will come takes the latch back. -/
def Calm (ch : Channel) : Prop := ∀ c ∈ ch.settled.queue, c.wakes = false

theorem settled_atLook (ch : Channel) : ch.atLook.settled = ch.settled := by
  rcases ch with ⟨queue, upcoming, handles⟩
  rcases upcoming with _ | ⟨commands | _, rest⟩
  · rfl
  · simp only [atLook, settled, List.append_assoc, List.flatMap_cons, Arrival.commands]
  · rfl

/-- **A look takes the front of all that will ever come.** -/
theorem queue_settled_look {taken : Option Command} (looked : ch.look = (taken, ch')) :
    ch.settled.queue = taken.toList ++ ch'.settled.queue := by
  rw [← settled_atLook]
  simp only [look] at looked
  split at looked
  · cases looked
    rfl
  · next c rest full =>
    cases looked
    simp only [settled, full]
    rfl

theorem queue_settled_waitFor {handles : Nat} {upcoming : List Arrival} {received : Reception}
    (waited : waitFor handles upcoming = (received, ch')) :
    upcoming.flatMap Arrival.commands = received.commands ++ ch'.settled.queue := by
  induction upcoming using firstComing.induct with
  | case1 =>
    cases waited
    split <;> rfl
  | case2 rest ih => exact ih waited
  | case3 c queue rest =>
    cases waited
    rfl
  | case4 c rest =>
    cases waited
    rfl

/-- **So does a wait.** -/
theorem queue_settled_wait {received : Reception} (waited : ch.wait = (received, ch')) :
    ch.settled.queue = received.commands ++ ch'.settled.queue := by
  rw [← settled_atLook]
  simp only [wait] at waited
  split at waited
  · next empty =>
    simp only [settled, empty, List.nil_append]
    exact queue_settled_waitFor waited
  · next c rest full =>
    cases waited
    simp only [settled, full]
    rfl

end Channel

/-! ## 2. Deeds -/

namespace Panel

variable {p p' : Panel} {total report : BatchReport} {d : Deed} {ds : List Deed}

/-- A batch of a halted machine. -/
theorem idles_runBatch (halt : p.console.machine.halted = true) (n : UInt32) :
    ∃ redrawn p', p.runBatch n = (.ok ⟨0, redrawn, true⟩, p') ∧
      p.console.machine.Idled p'.console.machine := by
  have batch := Machine.runBatch_of_halted halt n
  have result := (Console.runBatch_result p.console n).trans (congrArg Prod.fst batch)
  have behind := (Console.runBatch_machine p.console n).trans (congrArg Prod.snd batch)
  refine ⟨_, _, (p.runBatch_eq n).trans (Prod.ext result rfl), ?_⟩
  show p.console.machine.Idled (p.console.runBatch n).2.machine
  rw [behind]
  exact p.console.machine.idled_redrawIfAsked

/-- **A deed that does not wake a halted machine succeeds and does no cycle.** -/
theorem idles (halt : p.console.machine.halted = true) (calm : d.calm = true) :
    ∃ report p', p.act d = (.ok report, p') ∧ report.cycles = 0 ∧
      p.console.machine.Idled p'.console.machine := by
  cases d with
  | batch n =>
    obtain ⟨redrawn, p', done, idled⟩ := idles_runBatch halt n
    exact ⟨_, p', done, rfl, idled⟩
  | command c =>
    cases c with
    | step =>
      obtain ⟨redrawn, p', done, idled⟩ := idles_runBatch (p := p.note (.command .step)) halt 1
      exact ⟨_, p', done, rfl, idled⟩
    | press key => exact ⟨_, _, rfl, rfl, p.console.machine.idled_keyboard key.mask⟩
    | release => exact ⟨_, _, rfl, rfl, p.console.machine.idled_keyboard 0⟩
    | softReset | hardReset | reload => cases calm
    | _ => exact ⟨_, _, rfl, rfl, .refl _⟩

/-- So do deeds one after another. -/
theorem idles_all (halt : p.console.machine.halted = true) (calm : ∀ d ∈ ds, d.calm = true)
    (total : BatchReport) :
    ∃ report p', p.actAll total ds = (.ok report, p') ∧ report.cycles = total.cycles ∧
      p.console.machine.Idled p'.console.machine := by
  induction ds generalizing p total with
  | nil => exact ⟨total, p, rfl, rfl, .refl _⟩
  | cons d ds ih =>
    obtain ⟨first, behind, done, none, idled⟩ := idles halt (calm d List.mem_cons_self)
    obtain ⟨report, p', rest, cycles, idled'⟩ :=
      ih (idled.halted.trans halt) (fun d inside => calm d (List.mem_cons_of_mem _ inside))
        (total.andThen first)
    refine ⟨report, p', (actAll_cons_ok ds done).trans rest, cycles.trans ?_, idled.trans idled'⟩
    show total.cycles + first.cycles = total.cycles
    rw [none, UInt32.add_zero]

/-- They do not fail, at the last of them or before. -/
theorem not_failsAtLast {e : MachineError} (halt : p.console.machine.halted = true)
    (calm : ∀ d ∈ ds, d.calm = true) : ¬ p.FailsAtLast ds e p' := by
  rintro ⟨front, last, report, q, rfl, -, before, failed⟩
  obtain ⟨report', p'', done, -⟩ := idles_all halt calm .none
  rw [actAll_append before, actAll_cons_error [] failed] at done
  cases done

variable {σ : Type} {observe : σ → Frame → σ} {stretches : List (List Deed)}
  {reports : List (BatchReport × Frame)}

/-- The stretches of a run count no cycle. -/
theorem Does.idles (h : p.Does stretches reports p') (halt : p.console.machine.halted = true)
    (calm : ∀ d ∈ stretches.flatten, d.calm = true) (progress : Controller.Progress σ) :
    (Controller.addAll progress observe reports).cycles = progress.cycles := by
  induction h generalizing progress with
  | nil p => rfl
  | @cons p p' q ds report stretches reports first rest ih =>
    have here : ∀ d ∈ ds, d.calm = true := fun d inside =>
      calm d (List.mem_flatten.mpr ⟨ds, List.mem_cons_self, inside⟩)
    have later : ∀ d ∈ stretches.flatten, d.calm = true := by
      intro d inside
      refine calm d ?_
      rw [List.flatten_cons]
      exact List.mem_append_right ds inside
    obtain ⟨report', behind, done, none, idled⟩ := idles_all halt here .none
    cases first.symm.trans done
    refine (ih (idled.halted.trans halt) later (progress.add observe report p'.frame)).trans ?_
    show progress.cycles + report.cycles.toUInt64 = progress.cycles
    rw [none]
    exact UInt64.add_zero progress.cycles

end Panel

/-! ## 3. From one moment to the next -/

namespace Controller

/-- The machine is halted, and nothing that is queued or will come wakes it. -/
structure Asleep (c : Controller) : Prop where
  halt : c.panel.console.machine.halted = true
  calm : c.channel.Calm

variable {c c₁ c' : Controller} {came : List Command} {ds : List Deed}

/-- **All that will ever come is what is handled and then what is left.** -/
theorem Passes.settled (h : c.Passes came ds c') :
    c.channel.settled.queue = Deed.commands ds ++ c'.channel.settled.queue := by
  induction h with
  | here c => rfl
  | idle looked _ ih => exact (Channel.queue_settled_look looked).trans ih
  | polled looked _ ih =>
    exact (Channel.queue_settled_look looked).trans (congrArg (List.cons _) ih)
  | closed waited _ ih => exact (Channel.queue_settled_wait waited).trans ih
  | received waited _ ih =>
    exact (Channel.queue_settled_wait waited).trans (congrArg (List.cons _) ih)
  | ran _ _ ih => exact ih
  | released _ ih => exact ih
  | noted _ _ ih => exact ih

/-- Deeds leave a halted machine idle. -/
theorem Passes.idled (h : c.Passes came ds c') (halt : c.panel.console.machine.halted = true)
    (calm : ∀ d ∈ ds, d.calm = true) :
    c.panel.console.machine.Idled c'.panel.console.machine := by
  -- one deed, and the others behind it
  have onward {p : Panel} {d : Deed} {ds : List Deed} {m : Machine}
      (halt : p.console.machine.halted = true) (calm : ∀ e ∈ d :: ds, e.calm = true)
      (ih : (p.act d).2.console.machine.halted = true → (∀ e ∈ ds, e.calm = true) →
        (p.act d).2.console.machine.Idled m) : p.console.machine.Idled m := by
    obtain ⟨report, p', done, -, idled⟩ := Panel.idles halt (calm d List.mem_cons_self)
    rw [done] at ih
    exact idled.trans (ih (idled.halted.trans halt) fun e inside =>
      calm e (List.mem_cons_of_mem d inside))
  induction h with
  | here c => exact .refl _
  | idle _ _ ih => exact ih halt calm
  | @polled p _ _ c _ _ _ _ _ ih => exact onward (d := .command c) halt calm ih
  | closed _ _ ih => exact ih halt calm
  | @received p _ _ c _ _ _ _ _ ih => exact onward (d := .command c) halt calm ih
  | ran cycles _ ih => exact onward (d := .batch cycles) halt calm ih
  | released _ ih => exact ih halt calm
  | noted _ _ ih => exact ih halt calm

/-- The deeds of a controller that is asleep do not wake it. -/
theorem Passes.calm (h : c.Passes came ds c') (asleep : c.Asleep) : ∀ d ∈ ds, d.calm = true := by
  intro d inside
  cases d with
  | batch cycles => rfl
  | command x =>
    have handled : x ∈ Deed.commands ds := List.mem_filterMap.mpr ⟨.command x, inside, rfl⟩
    have still : x.wakes = false := by
      refine asleep.calm x ?_
      rw [h.settled]
      exact List.mem_append_left _ handled
    show (!x.wakes) = true
    rw [still]
    rfl

/-- **A controller that is asleep stays so**, and its machine idles. -/
theorem Passes.asleep (h : c.Passes came ds c') (asleep : c.Asleep) :
    c.panel.console.machine.Idled c'.panel.console.machine ∧ c'.Asleep := by
  have idled := h.idled asleep.halt (h.calm asleep)
  refine ⟨idled, idled.halted.trans asleep.halt, fun x inside => asleep.calm x ?_⟩
  rw [h.settled]
  exact List.mem_append_right _ inside

/-! ## 4. Polls and runs -/

/-- A poll reports no cycle. -/
theorem Asleep.cycles_of_polls {commands : List Command} {report : BatchReport} (asleep : c.Asleep)
    (polled : c.Polls commands report c') : report.cycles = 0 := by
  obtain ⟨came, passes⟩ := polled.passes
  obtain ⟨report', p', done, none, -⟩ := Panel.idles_all asleep.halt (passes.calm asleep) .none
  cases polled.handled.symm.trans done
  exact none

/-- It does not fail. -/
theorem Asleep.not_pollFails {commands : List Command} {last : Command} {e : MachineError}
    (asleep : c.Asleep) : ¬ c.PollFails commands last e c' := by
  intro polled
  obtain ⟨came, passes⟩ := polled.passes
  exact Panel.not_failsAtLast asleep.halt (passes.calm asleep) polled.failsAtLast

theorem Asleep.exists_polls (asleep : c.Asleep) :
    ∃ commands report c', c.Polls commands report c' := by
  rcases poll_cases c with polled | ⟨commands, last, e, c', polled⟩
  · exact polled
  · exact absurd polled asleep.not_pollFails

variable {σ : Type} {observe : σ → Frame → σ} {start shown : σ} {budget : Option UInt64}
  {result : Except MachineError RunReport} {stretches : List (List Deed)}

/-- A run that ends does so without a fault and without a cycle. -/
theorem Asleep.ends (asleep : c.Asleep) (ends : Ends observe start budget c (result, shown, c')) :
    (∃ summary, result = .ok summary ∧ summary.cycles = 0) ∧
      c.panel.console.machine.Idled c'.panel.console.machine ∧ c'.Asleep := by
  obtain ⟨stretches, ended, progress', d, course, concluded⟩ := ends_iff.mp ends
  obtain ⟨came, passes⟩ := course.passes
  obtain ⟨idled, asleep'⟩ := passes.asleep asleep
  cases ended with
  | error e =>
    exact absurd course.failsAtLast (Panel.not_failsAtLast asleep.halt (passes.calm asleep))
  | ok reason =>
    obtain ⟨reports, p, does, -, total⟩ := course.does
    have none : progress'.cycles = 0 := by
      rw [total]
      exact does.idles asleep.halt (passes.calm asleep) _
    cases concluded
    exact ⟨⟨_, rfl, none⟩, idled, asleep'.halt, asleep'.calm⟩

/-- A poll without a pause and a stop leaves both latches off. -/
theorem Polls.latches_off {commands : List Command} {report : BatchReport}
    (polled : c.Polls commands report c') (unpaused : c.panel.paused = false)
    (stop : c.panel.stopPending = false) (noPause : .pause ∉ commands)
    (noStop : .stop ∉ commands) : c'.panel.paused = false ∧ c'.panel.stopPending = false := by
  have other {x : Command} (absent : x ∉ commands) :
      Deed.command x ∉ commands.map Deed.command := by
    intro inside
    obtain ⟨y, present, same⟩ := List.mem_map.mp inside
    cases same
    exact absent present
  refine ⟨Panel.unpaused_actAll polled.handled unpaused (other noPause), ?_⟩
  rw [Panel.stopPending_actAll polled.handled, stop, decide_eq_false (other noStop)]
  rfl

/-- **A turn of a controller that is asleep ends the run at the halt**, if the controller is neither
    paused nor stopped and handles neither a pause nor a stop. -/
theorem Asleep.turned {progress : Progress σ} {t : Turn σ} (asleep : c.Asleep)
    (unpaused : c.panel.paused = false) (stop : c.panel.stopPending = false)
    (went : Turned observe budget progress c stretches t)
    (noPause : .pause ∉ Deed.commands stretches.flatten)
    (noStop : .stop ∉ Deed.commands stretches.flatten) :
    ∃ progress' c', t = .over (.ok .halted) progress' c' := by
  have front {x : Command} {commands : List Command} {others : List (List Deed)}
      (absent : x ∉ Deed.commands (commands.map .command :: others).flatten) : x ∉ commands := by
    rw [List.flatten_cons, Deed.commands_append, Deed.commands_map] at absent
    exact fun inside => absent (List.mem_append_left _ inside)
  cases went with
  | failed polled => exact absurd polled asleep.not_pollFails
  | stopped polled stopped =>
    obtain ⟨-, off⟩ := polled.latches_off unpaused stop (front noPause) (front noStop)
    cases stopped.symm.trans off
  | waited polled _ paused _ =>
    obtain ⟨off, -⟩ := polled.latches_off unpaused stop (front noPause) (front noStop)
    cases paused.symm.trans off
  | ran polled _ _ rest =>
    obtain ⟨came, passes⟩ := polled.passes
    have halt := (passes.asleep asleep).2.halt
    cases rest with
    | halted _ => exact ⟨_, _, rfl⟩
    | spent awake _ => cases halt.symm.trans awake
    | failed awake _ _ => cases halt.symm.trans awake
    | done awake _ _ => cases halt.symm.trans awake

/-- A run of a controller that is asleep, if it is neither paused nor stopped and handles neither a
    pause nor a stop: it is over behind its first poll, and the reason is the halt. -/
structure HaltsAtOnce (c : Controller) : Prop where
  polls : ∃ commands report c₁, c.Polls commands report c₁
  ends (commands : List Command) (report : BatchReport) (c₁ : Controller) :
    c.Polls commands report c₁ → .pause ∉ commands → .stop ∉ commands →
      ∀ {σ : Type} (observe : σ → Frame → σ) (start : σ) (budget : Option UInt64),
        Performs observe start budget c [commands.map .command] ∧
        ∃ frames shown c', c.run? observe start budget = some (.ok ⟨0, frames, .halted⟩, shown, c')
  reason {σ : Type} (observe : σ → Frame → σ) (start : σ) (budget : Option UInt64)
    (result : Except MachineError RunReport) (shown : σ) (c' : Controller)
    (stretches : List (List Deed)) :
    Ends observe start budget c (result, shown, c') → Performs observe start budget c stretches →
      .pause ∉ Deed.commands stretches.flatten → .stop ∉ Deed.commands stretches.flatten →
        ∃ frames, result = .ok ⟨0, frames, .halted⟩

theorem Asleep.halts_at_once (asleep : c.Asleep) (unpaused : c.panel.paused = false)
    (stop : c.panel.stopPending = false) : c.HaltsAtOnce where
  polls := asleep.exists_polls
  ends := by
    intro commands report c₁ polled noPause noStop σ observe start budget
    obtain ⟨off, off'⟩ := polled.latches_off unpaused stop noPause noStop
    obtain ⟨came, passes⟩ := polled.passes
    have halt := (passes.asleep asleep).2.halt
    have went : Turned observe budget ⟨0, 0, start⟩ c [commands.map .command] _ :=
      .ran polled off' off (.halted halt)
    obtain ⟨turns, enough⟩ := exists_enoughTurns budget c
    refine ⟨⟨_, _, _, .last went⟩, ?_⟩
    rw [run?, enough, runFor_eq, turnsFrom, turned_iff.mpr ⟨_, went⟩]
    have none : (0 : UInt64) + report.cycles.toUInt64 = 0 := by
      rw [asleep.cycles_of_polls polled]
      rfl
    simp only [Option.map_some, conclude, Progress.add, none]
    exact ⟨_, _, _, rfl⟩
  reason := by
    intro σ observe start budget result shown c' stretches ends performs noPause noStop
    obtain ⟨ended, progress', d, course⟩ := performs
    have same := ends_unique course.ends ends
    have halted : ended = .ok .halted := by
      cases course with
      | last went =>
        obtain ⟨_, _, ended⟩ := asleep.turned unpaused stop went noPause noStop
        cases ended
        rfl
      | @more _ _ _ _ _ _ first others _ went _ =>
        rw [List.flatten_append, Deed.commands_append] at noPause noStop
        obtain ⟨_, _, ended⟩ := asleep.turned unpaused stop went
          (fun inside => noPause (List.mem_append_left _ inside))
          (fun inside => noStop (List.mem_append_left _ inside))
        cases ended
    subst halted
    obtain ⟨⟨summary, done, none⟩, -, -⟩ := asleep.ends ends
    subst done
    cases same
    exact ⟨_, congrArg Except.ok (congrArg (RunReport.mk · _ _) none)⟩

/-! ## 5. Calls -/

/-- What comes back from a call. -/
inductive Reply where
  | answer (a : Answer)
  | report (result : Except MachineError BatchReport)
  | summary (result : Except MachineError RunReport)
  | nothing

/-- A reply reports no cycle, and no fault. -/
def Reply.Idle : Reply → Prop
  | .answer a => a.Idle
  | .report result => ∃ report, result = .ok report ∧ report.cycles = 0
  | .summary result => ∃ summary, result = .ok summary ∧ summary.cycles = 0
  | .nothing => True

/-- What can be called without waking the machine, with the reply: a calm request to the machine
    itself, which may leave any journal; a step, a batch, a poll, or a run that ends; a command that
    is sent; and the clock rate set, or handles and what will come to the channel. -/
inductive Called (c : Controller) : Reply → Controller → Prop where
  | request {r : Request} (calm : r.calm = true) (journal : Journal) :
      Called c (.answer (c.panel.console.machine.serve r).1)
        ⟨{ c.panel with console := ⟨(c.panel.console.machine.serve r).2, journal⟩ }, c.channel⟩
  | step {result : Except MachineError BatchReport} {p : Panel} (done : c.panel.step = (result, p)) :
      Called c (.report result) ⟨p, c.channel⟩
  | ownBatch {result : Except MachineError BatchReport} {p : Panel}
      (done : c.panel.runOwnBatch = (result, p)) : Called c (.report result) ⟨p, c.channel⟩
  | poll {result : Except MachineError BatchReport} {c' : Controller}
      (done : c.poll = (result, c')) : Called c (.report result) c'
  | run {σ : Type} {observe : σ → Frame → σ} {start shown : σ} {budget : Option UInt64}
      {result : Except MachineError RunReport} {c' : Controller}
      (ends : Ends observe start budget c (result, shown, c')) : Called c (.summary result) c'
  | send {x : Command} (calm : x.wakes = false) :
      Called c .nothing ⟨c.panel, c.channel.send x⟩
  | aside (speed : ClockRate) {upcoming : List Arrival} (handles : Nat)
      (calm : ∀ x ∈ upcoming.flatMap Arrival.commands, x.wakes = false) :
      Called c .nothing ⟨{ c.panel with speed }, { c.channel with upcoming, handles }⟩

/-- Calls one after another, with their replies. -/
inductive Calls : Controller → List Reply → Controller → Prop where
  | nil (c : Controller) : Calls c [] c
  | cons {c c₁ c' : Controller} {reply : Reply} {replies : List Reply}
      (first : c.Called reply c₁) (rest : Calls c₁ replies c') : Calls c (reply :: replies) c'

/-- **One call leaves a controller asleep**, and its reply reports nothing. -/
theorem Called.asleep {reply : Reply} (called : c.Called reply c') (asleep : c.Asleep) :
    reply.Idle ∧ c.panel.console.machine.Idled c'.panel.console.machine ∧ c'.Asleep := by
  -- most calls do not touch the channel
  have here {p : Panel} (idled : c.panel.console.machine.Idled p.console.machine) :
      c.panel.console.machine.Idled p.console.machine ∧ Asleep ⟨p, c.channel⟩ :=
    ⟨idled, idled.halted.trans asleep.halt, asleep.calm⟩
  have batch {n : UInt32} {result : Except MachineError BatchReport} {p : Panel}
      (done : c.panel.runBatch n = (result, p)) : (Reply.report result).Idle ∧
        c.panel.console.machine.Idled p.console.machine ∧ Asleep ⟨p, c.channel⟩ := by
    obtain ⟨redrawn, p', idle, idled⟩ := Panel.idles_runBatch asleep.halt n
    cases idle.symm.trans done
    exact ⟨⟨_, rfl, rfl⟩, here idled⟩
  cases called with
  | request calm journal =>
    obtain ⟨idle, idled⟩ := Machine.idled_serve asleep.halt calm
    exact ⟨idle, here idled⟩
  | step done => exact batch done
  | ownBatch done => exact batch done
  | poll done =>
    obtain ⟨commands, report, c₁, polled⟩ := asleep.exists_polls
    cases polled.poll_eq.symm.trans done
    obtain ⟨came, passes⟩ := polled.passes
    exact ⟨⟨report, rfl, asleep.cycles_of_polls polled⟩, passes.asleep asleep⟩
  | run ends => exact asleep.ends ends
  | @send x calm =>
    refine ⟨trivial, .refl _, asleep.halt, fun y inside => ?_⟩
    rcases List.mem_append.mp inside with front | later
    · rcases List.mem_append.mp front with before | sent
      · exact asleep.calm y (List.mem_append_left _ before)
      · rw [List.mem_singleton.mp sent]
        exact calm
    · exact asleep.calm y (List.mem_append_right _ later)
  | aside speed handles calm =>
    refine ⟨trivial, .refl _, asleep.halt, fun y inside => ?_⟩
    rcases List.mem_append.mp inside with before | later
    · exact asleep.calm y (List.mem_append_left _ before)
    · exact calm y later

/-- **So do any number of calls.** -/
theorem Calls.asleep {replies : List Reply} (calls : c.Calls replies c') (asleep : c.Asleep) :
    (∀ reply ∈ replies, reply.Idle) ∧
      c.panel.console.machine.Idled c'.panel.console.machine ∧ c'.Asleep := by
  induction calls with
  | nil c => exact ⟨nofun, .refl _, asleep⟩
  | cons first _ ih =>
    obtain ⟨idle, idled, asleep'⟩ := first.asleep asleep
    obtain ⟨idle', idled', last⟩ := ih asleep'
    refine ⟨fun reply inside => ?_, idled.trans idled', last⟩
    rcases List.mem_cons.mp inside with rfl | inside
    · exact idle
    · exact idle' reply inside

/-! ## 6. Halting -/

/-- **Halting is absorbing.** Of a controller whose machine is halted and that has no reset and no
    reload queued or to come: whatever is called without waking it, no cycle is reported and no call
    faults, and registers, counter and memory stay, but for the draw flag and the keyboard byte; the
    same holds in the middle of a run, also of one that never ends. A run that begins neither paused
    nor stopped and handles neither a pause nor a stop is over at once, and the reason is the halt.
    No cycle of a processor takes the latch back, nor does any request but resets, loads and
    registers restored, nor any command but the resets and the reload. -/
theorem halting_absorbs (asleep : c.Asleep) :
    (∀ replies c', c.Calls replies c' →
      (∀ reply ∈ replies, reply.Idle) ∧
        c.panel.console.machine.Idled c'.panel.console.machine ∧ c'.Asleep) ∧
    (∀ {σ : Type} (observe : σ → Frame → σ) (start : σ) (budget : Option UInt64) stretches c',
      Meanwhile observe budget ⟨0, 0, start⟩ c stretches c' →
        c.panel.console.machine.Idled c'.panel.console.machine ∧ c'.Asleep) ∧
    (c.panel.paused = false → c.panel.stopPending = false → c.HaltsAtOnce) ∧
    (∀ {M : Type} [Memory M] (cpu : Cpu M), cpu.halted = true →
      cpu.clock.2.halted = true ∧ ∀ n, (cpu.clocks n).2.halted = true) ∧
    (∀ (m : Machine) (r : Request), m.halted = true → (m.serve r).2.halted = false →
      r.wakes = true) ∧
    ∀ (p : Panel) (d : Deed), p.console.machine.halted = true →
      (p.act d).2.console.machine.halted = false → d.calm = false := by
  refine ⟨fun replies c' calls => calls.asleep asleep, ?_, asleep.halts_at_once, ?_, ?_, ?_⟩
  · intro σ observe start budget stretches c' meanwhile
    obtain ⟨came, passes⟩ := meanwhile.passes
    exact passes.asleep asleep
  · intro M _ cpu halt
    exact ⟨Cpu.halted_clock_iff.mpr (.inl halt), Cpu.halted_clocks halt⟩
  · intro m r halt awake
    cases wakes : r.wakes with
    | true => rfl
    | false => cases (Machine.halted_serve halt wakes).symm.trans awake
  · intro p d halt awake
    cases calm : d.calm with
    | false => rfl
    | true =>
      obtain ⟨report, p', done, -, idled⟩ := Panel.idles halt calm
      rw [done] at awake
      cases (idled.halted.trans halt).symm.trans awake

/-- A machine that has halted in its first cycle, with a key and a step queued: a run handles both and
    is over at once, with registers and counter as they were. -/
theorem halting_absorbs_powerOn :
    ∃ (m : Machine) (c c' : Controller) (frames : UInt64) (shown : Nat),
      m = (Machine.powerOn.runBatch 1).2 ∧ c.panel.console.machine = m ∧
      c.channel.queue = [.press .left, .step] ∧
      c.run? (fun n _ => n + 1) 0 none = some (.ok ⟨0, frames, .halted⟩, shown, c') ∧
      c'.panel.console.machine.registers = m.registers ∧
      c'.panel.console.machine.cpu.cycles = m.cpu.cycles := by
  let m : Machine := (Machine.powerOn.runBatch 1).2
  let p : Panel := ⟨⟨m, .blank none⟩, .fast, false, false⟩
  let queue : List Command := [.press .left, .step]
  have halt : p.console.machine.halted = true := by decide +kernel
  have calm : ∀ x ∈ queue, x.wakes = false := by decide
  have asleep : (⟨p, .awaiting queue [] 1⟩ : Controller).Asleep := ⟨halt, calm⟩
  obtain ⟨calls, -, halts, -⟩ := halting_absorbs asleep
  have calm' : ∀ d ∈ queue.map Deed.command, d.calm = true := by decide
  obtain ⟨report, p', handled, -⟩ := Panel.idles_all halt calm' .none
  obtain ⟨-, frames, shown, c', run⟩ := (halts rfl rfl).ends _ _ _ (polls_awaiting [] 1 handled)
    (by decide) (by decide) (fun n _ => n + 1) 0 none
  have ends : Ends (fun n _ => n + 1) 0 none _ (_, shown, c') := ⟨_, run⟩
  obtain ⟨-, idled, -⟩ := calls _ _ (.cons (.run ends) (.nil _))
  exact ⟨m, _, c', frames, shown, rfl, rfl, rfl, run, idled.registers, idled.counter⟩

end Controller
end Retro24
