/-
  File:      Retro24/Proofs/Controller/Order.lean
  Subject:   Commands are handled once, in the order in which the channel accepts them.

  * `Channel.arriving`, `Channel.awaited`: what comes with a look at a channel and while it is
    waited for. `queue_look`, `queue_wait`: neither loses, repeats or moves a command.
  * `Controller.Passes`: how a controller goes from one moment to a later one, with the commands
    that come in between and the deeds done. `Passes.account`: what is handled is the front of the
    queue and of what comes behind it.
  * `Polls.passes`, `Turned.passes`, `Course.passes`: polls, turns and runs go that way, and so do
    runs that are still under way (`Meanwhile`).
  * `Panel.FailsAtLast`: deeds of which the last one fails. A poll and a run that fail do so at
    their last deed (`PollFails.failsAtLast`, `Course.failsAtLast`).
  * `Session`: everything up to some moment, with what was accepted and what was handled.
  * `Carries`: what a call does about commands. `handled_in_order`: at every moment of a session
    those handled are the first of those accepted, and every call goes on from there.
-/
import Retro24.Proofs.Controller.Attempts
import Retro24.Proofs.Controller.Stops

namespace Retro24

/-! ## 1. Channels -/

/-- The commands that a wait brings. -/
def Reception.commands : Reception → List Command
  | .command c => [c]
  | .closed => []
  | .silent => []

namespace Channel

variable {ch ch' : Channel}

/-- The commands that come with the next look at the queue. -/
def arriving (ch : Channel) : List Command :=
  match ch.upcoming with
  | .atLook commands :: _ => commands
  | _ => []

/-- The commands that come until there is one to take. -/
def firstComing : List Arrival → List Command
  | [] => []
  | .atLook [] :: rest => firstComing rest
  | .atLook (c :: queue) :: _ => c :: queue
  | .whenWaiting c :: _ => [c]

/-- The commands that come while the machine waits for one. -/
def awaited (ch : Channel) : List Command :=
  ch.arriving ++ if ch.atLook.queue = [] then firstComing ch.atLook.upcoming else []

theorem queue_atLook (ch : Channel) : ch.atLook.queue = ch.queue ++ ch.arriving := by
  rcases ch with ⟨queue, upcoming, handles⟩
  rcases upcoming with _ | ⟨_ | _, rest⟩
  · exact (List.append_nil queue).symm
  · rfl
  · exact (List.append_nil queue).symm

/-- **A look takes the front of the queue** with what has come behind it. -/
theorem queue_look {taken : Option Command} (looked : ch.look = (taken, ch')) :
    ch.queue ++ ch.arriving = taken.toList ++ ch'.queue := by
  rw [← queue_atLook]
  simp only [look] at looked
  split at looked
  · next empty =>
    cases looked
    rfl
  · next c rest full =>
    cases looked
    exact full

theorem queue_waitFor {handles : Nat} {upcoming : List Arrival} {received : Reception}
    (waited : waitFor handles upcoming = (received, ch')) :
    firstComing upcoming = received.commands ++ ch'.queue := by
  induction upcoming using firstComing.induct with
  | case1 =>
    cases waited
    split <;> rfl
  | case2 rest ih => exact ih waited
  | case3 c queue rest =>
    cases waited
    rfl
  | case4 c rest =>
    cases waited
    rfl

/-- **A wait takes the front of the queue**, or of what comes if there is nothing in it. -/
theorem queue_wait {received : Reception} (waited : ch.wait = (received, ch')) :
    ch.queue ++ ch.awaited = received.commands ++ ch'.queue := by
  rw [awaited, ← List.append_assoc, ← queue_atLook]
  simp only [wait] at waited
  split at waited
  · next empty =>
    rw [if_pos empty, empty]
    exact queue_waitFor waited
  · next c rest full =>
    cases waited
    rw [full, if_neg (List.cons_ne_nil c rest), List.append_nil]
    rfl

end Channel

/-! ## 2. From one moment to the next -/

/-- The command that a deed handles. -/
def Deed.command? : Deed → Option Command
  | .command c => some c
  | .batch _ => none

/-- The commands that deeds handle. -/
def Deed.commands (ds : List Deed) : List Command := ds.filterMap Deed.command?

@[simp]
theorem Deed.commands_map (cs : List Command) : Deed.commands (cs.map .command) = cs := by
  rw [commands, List.filterMap_map]
  exact List.filterMap_some

@[simp]
theorem Deed.commands_append (ds es : List Deed) :
    Deed.commands (ds ++ es) = Deed.commands ds ++ Deed.commands es :=
  List.filterMap_append

namespace Controller

/-- How a controller goes from one moment to a later one, with the commands that come meanwhile and
    the deeds that it does. Every look, wait and deed is a moment of its own, and they may follow
    one another in any order. -/
inductive Passes : Controller → List Command → List Deed → Controller → Prop where
  | here (c : Controller) : Passes c [] [] c
  | idle {p : Panel} {ch ch' : Channel} {came : List Command} {ds : List Deed} {c' : Controller}
      (looked : ch.look = (none, ch')) (rest : Passes ⟨p, ch'⟩ came ds c') :
      Passes ⟨p, ch⟩ (ch.arriving ++ came) ds c'
  | polled {p : Panel} {ch ch' : Channel} {c : Command} {came : List Command} {ds : List Deed}
      {c' : Controller} (looked : ch.look = (some c, ch'))
      (rest : Passes ⟨(p.handle c).2, ch'⟩ came ds c') :
      Passes ⟨p, ch⟩ (ch.arriving ++ came) (.command c :: ds) c'
  | closed {p : Panel} {ch ch' : Channel} {came : List Command} {ds : List Deed} {c' : Controller}
      (waited : ch.wait = (.closed, ch')) (rest : Passes ⟨p, ch'⟩ came ds c') :
      Passes ⟨p, ch⟩ (ch.awaited ++ came) ds c'
  | received {p : Panel} {ch ch' : Channel} {c : Command} {came : List Command} {ds : List Deed}
      {c' : Controller} (waited : ch.wait = (.command c, ch'))
      (rest : Passes ⟨(p.handle c).2, ch'⟩ came ds c') :
      Passes ⟨p, ch⟩ (ch.awaited ++ came) (.command c :: ds) c'
  | ran {p : Panel} {ch : Channel} {came : List Command} {ds : List Deed} {c' : Controller}
      (cycles : UInt32) (rest : Passes ⟨(p.runBatch cycles).2, ch⟩ came ds c') :
      Passes ⟨p, ch⟩ came (.batch cycles :: ds) c'
  | released {p : Panel} {ch : Channel} {came : List Command} {ds : List Deed} {c' : Controller}
      (rest : Passes ⟨{ p with stopPending := false }, ch⟩ came ds c') :
      Passes ⟨p, ch⟩ came ds c'
  | noted {p : Panel} {ch : Channel} {came : List Command} {ds : List Deed} {c' : Controller}
      (e : Entry) (rest : Passes ⟨p.note e, ch⟩ came ds c') : Passes ⟨p, ch⟩ came ds c'

variable {c c₁ c' : Controller} {came later : List Command} {ds es : List Deed}

theorem Passes.trans (h : c.Passes came ds c₁) (h' : c₁.Passes later es c') :
    c.Passes (came ++ later) (ds ++ es) c' := by
  induction h with
  | here c => exact h'
  | idle looked _ ih =>
    rw [List.append_assoc]
    exact .idle looked (ih h')
  | polled looked _ ih =>
    rw [List.append_assoc]
    exact .polled looked (ih h')
  | closed waited _ ih =>
    rw [List.append_assoc]
    exact .closed waited (ih h')
  | received waited _ ih =>
    rw [List.append_assoc]
    exact .received waited (ih h')
  | ran cycles _ ih => exact .ran cycles (ih h')
  | released _ ih => exact .released (ih h')
  | noted e _ ih => exact .noted e (ih h')

/-- **From one moment to the next nothing is lost, repeated or moved**: what was in the queue and
    what came behind it is what was handled and what is in the queue. -/
theorem Passes.account (h : c.Passes came ds c') :
    c.channel.queue ++ came = Deed.commands ds ++ c'.channel.queue := by
  induction h with
  | here c => exact List.append_nil _
  | idle looked _ ih =>
    rw [← List.append_assoc, Channel.queue_look looked, ← ih]
    rfl
  | polled looked _ ih =>
    rw [← List.append_assoc, Channel.queue_look looked, List.append_assoc, ih]
    rfl
  | closed waited _ ih =>
    rw [← List.append_assoc, Channel.queue_wait waited, ← ih]
    rfl
  | received waited _ ih =>
    rw [← List.append_assoc, Channel.queue_wait waited, List.append_assoc, ih]
    rfl
  | ran _ _ ih => exact ih
  | released _ ih => exact ih
  | noted _ _ ih => exact ih

/-! ## 3. Calls -/

/-- Commands that are taken one after another and carried out. -/
theorem Passes.of_takes {ch ch' : Channel} {cs : List Command} {p p' : Panel}
    {total report : BatchReport} (taken : ch.Takes cs ch')
    (handled : p.actAll total (cs.map .command) = (.ok report, p')) :
    ∃ came, Passes ⟨p, ch⟩ came (cs.map .command) ⟨p', ch'⟩ := by
  induction taken generalizing p total with
  | nil ch =>
    cases handled
    exact ⟨[], .here _⟩
  | cons first _ ih =>
    obtain ⟨earlier, behind, done, others⟩ := Panel.exists_of_actAll_cons handled
    obtain ⟨came, rest⟩ := ih others
    have here : (p.handle _).2 = behind := congrArg Prod.snd done
    rw [← here] at rest
    exact ⟨_, .polled first rest⟩

theorem Polls.passes {commands : List Command} {report : BatchReport}
    (polled : c.Polls commands report c') :
    ∃ came, c.Passes came (commands.map .command) c' := by
  obtain ⟨⟨ch, taken, empty⟩, handled⟩ := polled
  obtain ⟨came, first⟩ := Passes.of_takes taken handled
  have whole := first.trans (.idle empty (.here _))
  rw [List.append_nil (commands.map Deed.command)] at whole
  exact ⟨_, whole⟩

theorem PollFails.passes {commands : List Command} {last : Command} {e : MachineError}
    (polled : c.PollFails commands last e c') :
    ∃ came, c.Passes came ((commands ++ [last]).map .command) c' := by
  obtain ⟨⟨ch, taken, looked⟩, report, p, handled, failed⟩ := polled
  obtain ⟨came, first⟩ := Passes.of_takes taken handled
  have behind : (p.handle last).2 = c'.panel := congrArg Prod.snd failed
  have rest : Passes ⟨p, ch⟩ (ch.arriving ++ []) [.command last] c' := by
    refine .polled looked ?_
    rw [behind]
    exact .here _
  rw [List.map_append]
  exact ⟨_, first.trans rest⟩

/-- A poll that succeeds leaves nothing in the queue. -/
theorem Polls.queue_eq_nil {commands : List Command} {report : BatchReport}
    (polled : c.Polls commands report c') : c'.channel.queue = [] := by
  obtain ⟨⟨ch, -, empty⟩, -⟩ := polled
  simp only [Channel.look] at empty
  split at empty
  · next none =>
    rw [← (Prod.mk.inj empty).2]
    exact none
  · cases empty

/-- A poll that succeeds has carried out all that was in the queue. -/
theorem Polls.queue_prefix {commands : List Command} {report : BatchReport}
    (polled : c.Polls commands report c') : c.channel.queue <+: commands := by
  obtain ⟨came, passes⟩ := polled.passes
  have account := passes.account
  rw [polled.queue_eq_nil, List.append_nil, Deed.commands_map] at account
  exact ⟨came, account⟩

variable {σ : Type} {observe : σ → Frame → σ} {start : σ} {budget : Option UInt64}
  {progress progress' : Progress σ} {result : Except MachineError RunEnd}
  {stretches : List (List Deed)} {p : Panel} {ch : Channel}

/-- The controller behind a turn, unless the turn waits for ever. -/
def Turn.behind? : Turn σ → Option Controller
  | .next _ c => some c
  | .over _ _ c => some c
  | .silent => none

/-- What failed in a turn, if something did. -/
def Turn.failure? : Turn σ → Option MachineError
  | .over (.error e) _ _ => some e
  | _ => none

theorem Waited.passes {t : Turn σ} (went : Waited observe progress p ch stretches t)
    (behind : t.behind? = some c') : ∃ came, Passes ⟨p, ch⟩ came stretches.flatten c' := by
  have received : ∀ {c : Command} {ch' : Channel} {q : Panel}, ch.wait = (.command c, ch') →
      (p.handle c).2 = q → ∃ came, Passes ⟨p, ch⟩ came [[.command c]].flatten ⟨q, ch'⟩ := by
    intro c ch' q waited handled
    subst handled
    exact ⟨_, .received waited (.here _)⟩
  cases went with
  | silent _ => cases behind
  | closed waited =>
    cases behind
    exact ⟨_, .closed waited (.here _)⟩
  | failed waited handled =>
    cases behind
    exact received waited (congrArg Prod.snd handled)
  | done waited handled =>
    cases behind
    exact received waited (congrArg Prod.snd handled)

theorem Ran.passes {t : Turn σ} (went : Ran observe budget progress p ch stretches t)
    (behind : t.behind? = some c') : ∃ came, Passes ⟨p, ch⟩ came stretches.flatten c' := by
  have ran : ∀ {cycles : UInt32} {q : Panel}, (p.runBatch cycles).2 = q →
      ∃ came, Passes ⟨p, ch⟩ came [[.batch cycles]].flatten ⟨q, ch⟩ := by
    intro cycles q batch
    subst batch
    exact ⟨_, .ran cycles (.here _)⟩
  cases went with
  | halted _ =>
    cases behind
    exact ⟨[], .here _⟩
  | spent _ _ =>
    cases behind
    exact ⟨[], .here _⟩
  | failed _ _ batch =>
    cases behind
    exact ran (congrArg Prod.snd batch)
  | done _ _ batch =>
    cases behind
    exact ran (congrArg Prod.snd batch)

/-- **A turn carries out commands in their order**, those of the poll and the one waited for. -/
theorem Turned.passes {t : Turn σ} (went : Turned observe budget progress c stretches t)
    (behind : t.behind? = some c') : ∃ came, c.Passes came stretches.flatten c' := by
  cases went with
  | failed polled =>
    cases behind
    rw [List.flatten_singleton]
    exact polled.passes
  | stopped polled _ =>
    cases behind
    obtain ⟨came, first⟩ := polled.passes
    have whole := first.trans (.released (.here _))
    rw [List.append_nil (List.map Deed.command _)] at whole
    rw [List.flatten_singleton]
    exact ⟨_, whole⟩
  | waited polled _ _ rest =>
    obtain ⟨came, first⟩ := polled.passes
    obtain ⟨later, second⟩ := rest.passes behind
    exact ⟨_, first.trans second⟩
  | ran polled _ _ rest =>
    obtain ⟨came, first⟩ := polled.passes
    obtain ⟨later, second⟩ := rest.passes behind
    exact ⟨_, first.trans second⟩

/-- **So does a run that ends**, however it does. -/
theorem Course.passes
    (course : Course observe budget progress c stretches result progress' c') :
    ∃ came, c.Passes came stretches.flatten c' := by
  induction course with
  | last went => exact went.passes rfl
  | more went _ ih =>
    obtain ⟨came, first⟩ := went.passes rfl
    obtain ⟨later, rest⟩ := ih
    rw [List.flatten_append]
    exact ⟨_, first.trans rest⟩

/-- The moments of a run that is under way, with what it has done up to then: in the middle of a
    poll, behind one, and the same in each turn behind which the run goes on. The run may end later,
    or never. -/
inductive Meanwhile (observe : σ → Frame → σ) (budget : Option UInt64) :
    Progress σ → Controller → List (List Deed) → Controller → Prop where
  | polling {progress : Progress σ} {c : Controller} {commands : List Command} {ch : Channel}
      {report : BatchReport} {p : Panel} (taken : c.channel.Takes commands ch)
      (handled : c.panel.actAll .none (commands.map .command) = (.ok report, p)) :
      Meanwhile observe budget progress c [commands.map .command] ⟨p, ch⟩
  | polled {progress : Progress σ} {c c₁ : Controller} {commands : List Command}
      {report : BatchReport} (polled : c.Polls commands report c₁) :
      Meanwhile observe budget progress c [commands.map .command] c₁
  | next {progress next : Progress σ} {c c₁ c' : Controller} {stretches others : List (List Deed)}
      (went : Turned observe budget progress c stretches (.next next c₁))
      (rest : Meanwhile observe budget next c₁ others c') :
      Meanwhile observe budget progress c (stretches ++ others) c'

/-- **So does a run that is under way.** -/
theorem Meanwhile.passes (h : Meanwhile observe budget progress c stretches c') :
    ∃ came, c.Passes came stretches.flatten c' := by
  induction h with
  | polling taken handled =>
    rw [List.flatten_singleton]
    exact Passes.of_takes taken handled
  | polled polled =>
    rw [List.flatten_singleton]
    exact polled.passes
  | next went _ ih =>
    obtain ⟨came, first⟩ := went.passes rfl
    obtain ⟨later, rest⟩ := ih
    rw [List.flatten_append]
    exact ⟨_, first.trans rest⟩

/-- A turn that does not fail has carried out all that was in the queue. -/
theorem Turned.queue_prefix {t : Turn σ} (went : Turned observe budget progress c stretches t)
    (well : t.failure? = none) :
    c.channel.queue <+: Deed.commands stretches.flatten := by
  have front : ∀ {commands : List Command} (others : List (List Deed)),
      c.channel.queue <+: commands →
        c.channel.queue <+: Deed.commands (commands.map .command :: others).flatten := by
    intro commands others inside
    rw [List.flatten_cons, Deed.commands_append, Deed.commands_map]
    exact inside.trans (List.prefix_append _ _)
  cases went with
  | failed _ => cases well
  | stopped polled _ => exact front [] polled.queue_prefix
  | waited polled _ _ _ => exact front _ polled.queue_prefix
  | ran polled _ _ _ => exact front _ polled.queue_prefix

/-- **A run that ends without an error has carried out all that was in the queue.** -/
theorem Course.queue_prefix {reason : RunEnd}
    (course : Course observe budget progress c stretches (.ok reason) progress' c') :
    c.channel.queue <+: Deed.commands stretches.flatten := by
  cases course with
  | last went => exact went.queue_prefix rfl
  | more went rest =>
    rw [List.flatten_append, Deed.commands_append]
    exact (went.queue_prefix rfl).trans (List.prefix_append _ _)

end Controller

/-! ## 4. Failures -/

/-- Deeds that may fail: those that run the processor, and the one that installs an image. -/
def Deed.mayFail : Deed → Bool
  | .command .step => true
  | .command .reload => true
  | .command _ => false
  | .batch _ => true

namespace Panel

variable {p p' q : Panel} {total report : BatchReport} {e : MachineError} {d : Deed}
  {ds es : List Deed}

theorem mayFail_of_error (h : p.act d = (.error e, p')) : d.mayFail = true := by
  cases d with
  | batch cycles => rfl
  | command c =>
    cases c with
    | step | reload => rfl
    | _ => cases h

/-- Deeds that all succeed but for the last one, which fails. -/
def FailsAtLast (p : Panel) (ds : List Deed) (e : MachineError) (p' : Panel) : Prop :=
  ∃ front last report q, ds = front ++ [last] ∧ last.mayFail = true ∧
    p.actAll .none front = (.ok report, q) ∧ q.act last = (.error e, p')

theorem failsAtLast_single (h : p.act d = (.error e, p')) : p.FailsAtLast [d] e p' :=
  ⟨[], d, .none, p, rfl, mayFail_of_error h, rfl, h⟩

theorem FailsAtLast.behind (h : q.FailsAtLast es e p')
    (done : p.actAll total ds = (.ok report, q)) : p.FailsAtLast (ds ++ es) e p' := by
  obtain ⟨front, last, _, r, rfl, mayFail, before, failed⟩ := h
  obtain ⟨sum, first⟩ := exists_actAll done .none
  obtain ⟨sum', second⟩ := exists_actAll before sum
  refine ⟨ds ++ front, last, sum', r, (List.append_assoc ds front [last]).symm, mayFail, ?_, failed⟩
  exact (actAll_append first front).trans second

end Panel

namespace Controller

variable {c c' : Controller} {σ : Type} {observe : σ → Frame → σ} {start : σ}
  {budget : Option UInt64} {progress progress' : Progress σ} {e : MachineError}
  {stretches : List (List Deed)}

/-- **A poll that fails does so at the last command that it takes.** -/
theorem PollFails.failsAtLast {commands : List Command} {last : Command}
    (polled : c.PollFails commands last e c') :
    c.panel.FailsAtLast ((commands ++ [last]).map .command) e c'.panel := by
  obtain ⟨-, report, p, handled, failed⟩ := polled
  rw [List.map_append]
  exact (Panel.failsAtLast_single (d := .command last) failed).behind handled

theorem Turned.failsAtLast
    (went : Turned observe budget progress c stretches (.over (.error e) progress' c')) :
    c.panel.FailsAtLast stretches.flatten e c'.panel := by
  cases went with
  | failed polled =>
    rw [List.flatten_singleton]
    exact polled.failsAtLast
  | waited polled _ _ rest =>
    cases rest with
    | @failed _ last _ _ _ failed =>
      exact (Panel.failsAtLast_single (d := .command last) failed).behind polled.handled
  | ran polled _ _ rest =>
    cases rest with
    | @failed cycles _ _ _ _ failed =>
      exact (Panel.failsAtLast_single (d := .batch cycles) failed).behind polled.handled

/-- **A run that fails does so at its last deed.** -/
theorem Course.failsAtLast
    (course : Course observe budget progress c stretches (.error e) progress' c') :
    c.panel.FailsAtLast stretches.flatten e c'.panel := by
  generalize ended : (.error e : Except MachineError RunEnd) = result at course
  induction course with
  | last went =>
    cases ended
    exact went.failsAtLast
  | more went _ ih =>
    obtain ⟨reports, done, -⟩ := went.does_next
    obtain ⟨report, flat⟩ := done.actAll_flatten
    rw [List.flatten_append]
    exact (ih ended).behind flat

/-! ## 5. Sessions -/

/-- What was accepted and what was handled up to a moment of a session. In between the console and
    the clock rate may be set by hand, handles may come and go, and what is to come is anybody's
    choice. -/
inductive Session : List Command → List Command → Controller → Prop where
  | start (console : Console) : Session [] [] (Controller.start console)
  | aside {accepted handled : List Command} {c : Controller} (h : Session accepted handled c)
      (console : Console) (speed : ClockRate) (upcoming : List Arrival) (handles : Nat) :
      Session accepted handled
        ⟨{ c.panel with console, speed }, { c.channel with upcoming, handles }⟩
  | send {accepted handled : List Command} {c : Controller} (h : Session accepted handled c)
      (command : Command) :
      Session (accepted ++ [command]) handled ⟨c.panel, c.channel.send command⟩
  | pass {accepted handled came : List Command} {c c' : Controller} {ds : List Deed}
      (h : Session accepted handled c) (passes : c.Passes came ds c') :
      Session (accepted ++ came) (handled ++ Deed.commands ds) c'

/-- At every moment the commands handled are the first of those accepted, and the others are
    queued. -/
theorem Session.account {accepted handled : List Command} (h : Session accepted handled c) :
    accepted = handled ++ c.channel.queue := by
  induction h with
  | start console => rfl
  | aside _ _ _ _ _ ih => exact ih
  | send _ command ih =>
    rw [ih, List.append_assoc]
    rfl
  | pass _ passes ih => rw [ih, List.append_assoc, passes.account, List.append_assoc]

/-- A call that carries out deeds: the commands among them are the front of the queue and of what
    comes behind it, and the others are queued as they were. If the call succeeds then all that was
    queued when it began is carried out; if it fails, it is the last deed that fails. -/
structure Carries {α : Type} (c : Controller) (result : Except MachineError α) (ds : List Deed)
    (c' : Controller) : Prop where
  in_order : ∃ came, c.Passes came ds c' ∧
    c.channel.queue ++ came = Deed.commands ds ++ c'.channel.queue
  ok : ∀ a, result = .ok a → c.channel.queue <+: Deed.commands ds
  error : ∀ e, result = .error e → c.panel.FailsAtLast ds e c'.panel

theorem poll_carries {result : Except MachineError BatchReport} (h : c.poll = (result, c')) :
    ∃ commands : List Command, c.Carries result (commands.map .command) c' := by
  rcases poll_cases c with ⟨commands, report, c₁, polled⟩ | ⟨commands, last, e, c₁, polled⟩
  · cases polled.poll_eq.symm.trans h
    obtain ⟨came, passes⟩ := polled.passes
    refine ⟨commands, ⟨came, passes, passes.account⟩, fun _ _ => ?_, nofun⟩
    rw [Deed.commands_map]
    exact polled.queue_prefix
  · cases polled.poll_eq.symm.trans h
    obtain ⟨came, passes⟩ := polled.passes
    refine ⟨commands ++ [last], ⟨came, passes, passes.account⟩, nofun, fun e same => ?_⟩
    cases same
    exact polled.failsAtLast

theorem Ends.carries {result : Except MachineError RunReport} {shown : σ}
    (h : Ends observe start budget c (result, shown, c')) :
    ∃ stretches, Performs observe start budget c stretches ∧
      c.Carries result stretches.flatten c' := by
  obtain ⟨stretches, ended, progress', d, course, concluded⟩ := ends_iff.mp h
  obtain ⟨came, passes⟩ := course.passes
  refine ⟨stretches, ⟨_, _, _, course⟩, ?_⟩
  cases ended with
  | error e =>
    cases concluded
    refine ⟨⟨came, passes, passes.account⟩, nofun, fun e' same => ?_⟩
    cases same
    exact course.failsAtLast
  | ok reason =>
    cases concluded
    -- the end of the run is noted, which is not a deed
    have noted :=
      passes.trans (.noted (.runEnded reason progress'.cycles progress'.frames) (.here _))
    rw [List.append_nil stretches.flatten] at noted
    exact ⟨⟨_, noted, noted.account⟩, fun _ _ => course.queue_prefix, nofun⟩

/-- **Commands are handled once, and in the order in which they are accepted.** At every moment of a
    session those handled are the first of those accepted, and the others are queued in their order.
    Polls and runs go on from there in the same way, also while a run is under way: they handle the
    front of the queue and of what comes behind it, all of the queue if they succeed, and if they
    fail, up to the deed that fails. -/
theorem handled_in_order {accepted handled : List Command} (h : Session accepted handled c) :
    accepted = handled ++ c.channel.queue ∧
    (∀ result c', c.poll = (result, c') →
      ∃ commands : List Command, c.Carries result (commands.map .command) c') ∧
    ∀ {σ : Type} (observe : σ → Frame → σ) (start : σ) (budget : Option UInt64),
      (∀ stretches c', Meanwhile observe budget ⟨0, 0, start⟩ c stretches c' →
        ∃ came, c.Passes came stretches.flatten c' ∧
          accepted ++ came = handled ++ Deed.commands stretches.flatten ++ c'.channel.queue) ∧
      ∀ result shown c', Ends observe start budget c (result, shown, c') →
        ∃ stretches, Performs observe start budget c stretches ∧
          c.Carries result stretches.flatten c' := by
  refine ⟨h.account, fun result c' => poll_carries, fun observe start budget => ⟨?_, ?_⟩⟩
  · intro stretches c' meanwhile
    obtain ⟨came, passes⟩ := meanwhile.passes
    exact ⟨came, passes, (h.pass passes).account⟩
  · exact fun result shown c' => Ends.carries

/-- A single step that finds no opcode fails. -/
theorem handle_step_fault {p : Panel} {fault : CpuFault}
    (awake : p.console.machine.halted = false)
    (fetch : p.console.machine.cpu.fetch = .error fault) :
    p.handle .step = (.error (.cpu fault), (p.handle .step).2) := by
  have batch := Machine.runBatch_fault awake fetch (UInt32.le_refl 1)
  exact Prod.ext ((Panel.handle_step_result p).trans (congrArg Prod.fst batch)) rfl

/-- Four commands of which the second fails: it and the one in front of it are handled, and the two
    behind it are first in the next run, which the last of them ends. -/
theorem handled_in_order_garbled :
    ∃ (c c' c'' : Controller) (poll run : List Deed), c.panel.console.machine = garbled ∧
      Session [.pause, .step, .resume, .stop] [] c ∧
      c.Carries (.error (.cpu (.unknownOpcode 0x0C 0x0100)) : Except MachineError BatchReport)
        poll c' ∧
      Session [.pause, .step, .resume, .stop] [.pause, .step] c' ∧
      c'.channel.queue = [.resume, .stop] ∧
      Ends (fun n _ => n + 1) 0 none c' (.ok ⟨0, 0, .stopped⟩, 0, c'') ∧
      c'.Carries (.ok ⟨0, 0, .stopped⟩ : Except MachineError RunReport) run c'' := by
  have awake : garbled.halted = false := by
    rw [garbled_eq]
    rfl
  let p : Panel := ⟨⟨garbled, .blank none⟩, .fast, false, false⟩
  have sent : Session [.pause, .step, .resume, .stop] []
      ⟨p, .awaiting [.pause, .step, .resume, .stop] [] 1⟩ :=
    ((((Session.start ⟨garbled, .blank none⟩).send .pause).send .step).send .resume).send .stop
  have pause : p.actAll .none ([Command.pause].map .command) = (.ok .none, (p.handle .pause).2) :=
    Panel.actAll_singleton (d := .command .pause) rfl
  have failed := handle_step_fault (p := (p.handle .pause).2) awake fetch_garbled
  have polled := pollFails_awaiting [.resume, .stop] [] 1 pause failed
  obtain ⟨came, passes⟩ := polled.passes
  have nothing : came = [] := List.append_cancel_left passes.account
  subst nothing
  have rest : Session [.pause, .step, .resume, .stop] [.pause, .step] _ := sent.pass passes
  have stopped : (⟨((p.handle .pause).2.handle .step).2, .awaiting [.resume, .stop] [] 1⟩ :
      Controller).Polls [.resume, .stop] .none ⟨_, .awaiting [] [] 1⟩ := polls_awaiting [] 1 rfl
  have ends := ends_of_stop stopped rfl (fun n _ => n + 1) 0 none
  obtain ⟨commands, poll⟩ := (handled_in_order sent).2.1 _ _ polled.poll_eq
  obtain ⟨stretches, -, run⟩ := ((handled_in_order rest).2.2 _ _ _).2 _ _ _ ends
  exact ⟨_, _, _, _, _, rfl, sent, poll, rest, rfl, ends, run⟩

end Controller
end Retro24
