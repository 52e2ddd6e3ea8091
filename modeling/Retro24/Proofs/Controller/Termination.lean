/-
  File:      Retro24/Proofs/Controller/Termination.lean
  Subject:   Under a budget, and with nobody left who could send a command, a run ends.

  * `Takes.pending`, `wait_dropped`: commands that are taken are no longer pending, and waiting
    brings one or is over once no handle is left.
  * `Panel.sound_act`: whatever a run does to its machine, the invariant of machines holds.
  * `batchSize_cut`: a batch has at least one cycle and at most what the budget leaves.
  * `Turned.unspent_lt`: a turn behind which the run goes on takes commands or cycles off what is
    left (`unspent`); `exists_turnsFrom`: so a run ends within as many turns.
  * `Starts`: the batches that a run starts. `Starts.works`: each of them does a cycle or fails;
    `Starts.fails`: and with one that fails the run is over.
  * `run_terminates`: all of it together.
-/
import Retro24.Proofs.Controller.Budgets
import Retro24.Proofs.Controller.Order

namespace Retro24

/-! ## 1. Channels -/

namespace Channel

variable {ch ch' : Channel}

theorem handles_atLook (ch : Channel) : ch.atLook.handles = ch.handles := by
  unfold atLook
  split <;> rfl

theorem handles_look {taken : Option Command} (looked : ch.look = (taken, ch')) :
    ch'.handles = ch.handles := by
  rw [← ch.handles_atLook]
  simp only [look] at looked
  split at looked <;> cases looked <;> rfl

theorem pending_of_look_none (looked : ch.look = (none, ch')) : ch'.pending = ch.pending := by
  rw [← ch.pending_atLook]
  simp only [look] at looked
  split at looked
  · cases looked
    rfl
  · cases looked

/-- Commands that are taken are no longer pending. -/
theorem Takes.pending {cs : List Command} (taken : ch.Takes cs ch') :
    ch'.pending + cs.length = ch.pending ∧ ch'.handles = ch.handles := by
  induction taken with
  | nil ch => exact ⟨rfl, rfl⟩
  | cons first _ ih =>
    have one := look_pending first
    have kept := handles_look first
    exact ⟨by rw [List.length_cons]; omega, ih.2.trans kept⟩

/-- Where nothing is to come, nothing comes. -/
theorem upcoming_look {taken : Option Command} (none : ch.upcoming = [])
    (looked : ch.look = (taken, ch')) : ch'.upcoming = [] := by
  have same : ch.atLook = ch := by
    unfold atLook
    rw [none]
  simp only [look, same] at looked
  split at looked
  · cases looked
    exact none
  · cases looked
    exact none

theorem Takes.upcoming {cs : List Command} (taken : ch.Takes cs ch') (none : ch.upcoming = []) :
    ch'.upcoming = [] := by
  induction taken with
  | nil ch => exact none
  | cons first _ ih => exact ih (upcoming_look none first)

theorem waitFor_dropped (upcoming : List Arrival) :
    (∃ c ch', waitFor 0 upcoming = (.command c, ch') ∧ ch'.handles = 0 ∧
      ch'.pending + 1 = upcoming.foldr (fun a n => a.count + n) 0) ∨
    ∃ ch', waitFor 0 upcoming = (.closed, ch') := by
  induction upcoming with
  | nil => exact .inr ⟨_, rfl⟩
  | cons arrival rest ih =>
    rcases arrival with (_ | ⟨c, queue⟩) | c
    · -- nothing comes with this look
      rw [waitFor, List.foldr_cons, Arrival.count, List.length_nil, Nat.zero_add]
      exact ih
    · refine .inl ⟨c, _, rfl, rfl, ?_⟩
      rw [List.foldr_cons, Arrival.count, List.length_cons]
      exact Nat.add_right_comm _ _ 1
    · refine .inl ⟨c, _, rfl, rfl, ?_⟩
      rw [List.foldr_cons, Arrival.count, Nat.add_comm 1]
      exact congrArg (· + 1) (Nat.zero_add _)

/-- **Once no handle is left, waiting brings a command that was pending or is over.** -/
theorem wait_dropped (dropped : ch.handles = 0) :
    (∃ c ch', ch.wait = (.command c, ch') ∧ ch'.handles = 0 ∧ ch'.pending + 1 = ch.pending) ∨
    ∃ ch', ch.wait = (.closed, ch') := by
  have none := ch.handles_atLook.trans dropped
  rw [← ch.pending_atLook]
  unfold wait
  generalize ch.atLook = late at none
  rcases late with ⟨queue, upcoming, handles⟩
  subst none
  cases queue with
  | nil =>
    simp only [pending, List.length_nil, Nat.zero_add]
    exact waitFor_dropped upcoming
  | cons c rest =>
    refine .inl ⟨c, _, rfl, rfl, ?_⟩
    simp only [pending, List.length_cons]
    omega

end Channel

/-! ## 2. Machines under a run -/

theorem Console.installProgram_machine (c : Console) (image : Program) :
    (c.installProgram image).2.machine = (c.machine.installProgram image).2 := by
  unfold Console.installProgram
  rcases c.machine.installProgram image with ⟨(e | _), machine⟩ <;> rfl

namespace Panel

variable {p q : Panel} {report total : BatchReport}

theorem sound_runBatch (sound : p.console.machine.Sound) (cycles : UInt32) :
    (p.runBatch cycles).2.console.machine.Sound := by
  have machine := Console.runBatch_machine p.console cycles
  rw [runBatch_eq]
  show (p.console.runBatch cycles).2.machine.Sound
  rw [machine]
  exact sound.runBatch cycles

theorem sound_reload (sound : p.console.machine.Sound) :
    (p.perform .reload).2.console.machine.Sound := by
  rw [perform_reload]
  unfold Console.reload
  cases p.console.machine.program with
  | none => exact sound
  | some image =>
    have installed := sound.installProgram image
    rw [← Console.installProgram_machine] at installed
    rcases placed : p.console.installProgram image with ⟨(e | _), console⟩
    all_goals
      rw [placed] at installed
      simp only [placed]
      exact installed

/-- **Whatever a run does to its machine, the invariant of machines holds.** -/
theorem sound_act (sound : p.console.machine.Sound) (d : Deed) :
    (p.act d).2.console.machine.Sound := by
  cases d with
  | batch cycles => exact sound_runBatch sound cycles
  | command c =>
    have noted : (p.note (.command c)).console.machine.Sound := sound
    unfold act handle
    cases c with
    | step => exact sound_runBatch noted 1
    | press key => exact sound.withBus (·.write keyboardAddress key.mask)
    | release => exact sound.withBus (·.write keyboardAddress 0)
    | softReset => exact sound.softReset
    | hardReset => exact sound.hardReset
    | reload => exact sound_reload noted
    | _ => exact sound

theorem sound_actAll {ds : List Deed} (sound : p.console.machine.Sound)
    (done : p.actAll total ds = (.ok report, q)) : q.console.machine.Sound := by
  induction ds generalizing p total with
  | nil =>
    cases done
    exact sound
  | cons d ds ih =>
    obtain ⟨first, behind, here, rest⟩ := exists_of_actAll_cons done
    have next := sound_act sound d
    rw [here] at next
    exact ih next rest

end Panel

/-! ## 3. Batches -/

namespace Controller

variable {σ : Type} {observe : σ → Frame → σ} {start : σ} {limit spent : UInt64}
  {progress next progress' : Progress σ} {c c₁ c' : Controller} {p q : Panel} {ch : Channel}
  {cycles : UInt32} {stretches : List (List Deed)}

/-- **A batch has at least one cycle**, and as many as the machine's own batches or as the budget
    leaves, whichever is less: nothing is lost where it becomes a word of 32 bits. -/
theorem batchSize_cut {batchLength : UInt32} (filled : 1 ≤ batchLength)
    (size : batchSize batchLength (some limit) spent = some cycles) :
    1 ≤ cycles ∧ cycles.toNat = min batchLength.toNat (limit.toNat - spent.toNat) := by
  by_cases full : limit ≤ spent
  · cases size.symm.trans (batchSize_of_spent batchLength full)
  · rw [UInt64.le_iff_toNat_le] at full
    have sum : spent.toNat + (limit.toNat - spent.toNat) = limit.toNat := by omega
    obtain ⟨room, words⟩ := left_of_batchSize size sum
    rw [UInt32.le_iff_toNat_le, UInt32.toNat_one] at filled ⊢
    exact ⟨by omega, words⟩

/-- A batch of a panel that is under way: it has a cycle at least and just what the budget leaves
    for it, and it does a cycle or finds no opcode. -/
structure Works (limit spent : UInt64) (cycles : UInt32) (p : Panel) : Prop where
  filled : 1 ≤ cycles
  cut : cycles.toNat = min p.console.machine.batchLength.toNat (limit.toNat - spent.toNat)
  works : (∃ fault q, p.runBatch cycles = (.error (.cpu fault), q)) ∨
    ∃ report q, p.runBatch cycles = (.ok report, q) ∧ 1 ≤ report.cycles

theorem Works.of_size (sound : p.console.machine.Sound) (awake : p.console.machine.halted = false)
    (size : batchSize p.console.machine.batchLength (some limit) spent = some cycles) :
    Works limit spent cycles p := by
  obtain ⟨filled, cut⟩ := batchSize_cut sound.batch size
  refine ⟨filled, cut, ?_⟩
  have batch := p.runBatch_eq cycles
  rcases Machine.runBatch_works awake filled with ⟨fault, failed⟩ | ⟨report, done, some⟩
  · rw [← Console.runBatch_result] at failed
    rw [failed] at batch
    exact .inl ⟨fault, _, batch⟩
  · rw [← Console.runBatch_result] at done
    rw [done] at batch
    exact .inr ⟨report, _, batch, some⟩

theorem Works.some_done {report : BatchReport} (h : Works limit spent cycles p)
    (batch : p.runBatch cycles = (.ok report, q)) : 1 ≤ report.cycles.toNat := by
  rcases h.works with ⟨fault, _, failed⟩ | ⟨report', _, done, some⟩
  · cases batch.symm.trans failed
  · cases batch.symm.trans done
    exact UInt32.le_iff_toNat_le.mp some

/-! ## 4. Turns -/

/-- **A batch that succeeds takes cycles off what the budget leaves**, and no more than that. -/
theorem Ran.spends (sound : p.console.machine.Sound)
    (went : Ran observe (some limit) progress p ch stretches (.next next c₁)) :
    progress.cycles.toNat < next.cycles.toNat ∧ next.cycles.toNat ≤ limit.toNat ∧
      c₁.channel = ch := by
  cases went with
  | @done cycles report q awake size batch =>
    have some := (Works.of_size sound awake size).some_done batch
    have fits := batchSize_le size
    have less := Panel.cycles_of_batch batch
    have small := limit.toNat_lt
    have sum : (progress.cycles + report.cycles.toUInt64).toNat =
        progress.cycles.toNat + report.cycles.toNat := toNat_addCycles (by omega)
    show _ < (progress.cycles + report.cycles.toUInt64).toNat ∧
      (progress.cycles + report.cycles.toUInt64).toNat ≤ _ ∧ _
    rw [sum]
    exact ⟨by omega, by omega, rfl⟩

/-- What a run under a budget can still take: commands that are pending, and cycles. -/
def unspent (limit : UInt64) (progress : Progress σ) (ch : Channel) : Nat :=
  ch.pending + (limit.toNat - progress.cycles.toNat)

/-- A run that can do all that is pending without its count wrapping around. -/
def Counted (limit : UInt64) (progress : Progress σ) (ch : Channel) : Prop :=
  max progress.cycles.toNat limit.toNat + ch.pending < 0x10000000000000000

/-- What stays so from turn to turn, once no handle is left. -/
structure Winding (limit : UInt64) (progress : Progress σ) (c : Controller) : Prop where
  sound : c.panel.console.machine.Sound
  dropped : c.channel.handles = 0
  counted : Counted limit progress c.channel

/-- A report of commands is counted, and takes as many of those that are pending. -/
theorem Counted.add {report : BatchReport} {ch' : Channel} {taken : Nat} (observe : σ → Frame → σ)
    (frame : Frame) (counted : Counted limit progress ch) (pending : ch'.pending + taken = ch.pending)
    (few : report.cycles.toNat ≤ taken) :
    Counted limit (progress.add observe report frame) ch' ∧
      unspent limit (progress.add observe report frame) ch' + taken ≤ unspent limit progress ch := by
  unfold Counted at counted ⊢
  have sum : (progress.add observe report frame).cycles.toNat =
      progress.cycles.toNat + report.cycles.toNat := toNat_addCycles (by omega)
  unfold unspent
  rw [sum]
  omega

/-- What a poll leaves of a channel. -/
theorem Polls.channel {commands : List Command} {report : BatchReport}
    (polled : c.Polls commands report c₁) :
    c₁.channel.pending + commands.length = c.channel.pending ∧
      c₁.channel.handles = c.channel.handles := by
  obtain ⟨ch, taken, looked⟩ := polled.taken
  obtain ⟨pending, handles⟩ := taken.pending
  rw [Channel.pending_of_look_none looked, Channel.handles_look looked]
  exact ⟨pending, handles⟩

theorem Polls.winding {commands : List Command} {report : BatchReport} (observe : σ → Frame → σ)
    (winding : Winding limit progress c) (polled : c.Polls commands report c₁) :
    Winding limit (progress.add observe report c₁.panel.frame) c₁ ∧
      unspent limit (progress.add observe report c₁.panel.frame) c₁.channel ≤
        unspent limit progress c.channel := by
  obtain ⟨pending, handles⟩ := polled.channel
  have steps := (Panel.cycles_of_commands polled.handled (no_batch_of_commands commands)).1
  have few : report.cycles.toNat ≤ commands.length :=
    Nat.le_trans steps (Nat.le_trans List.count_le_length (Nat.le_of_eq (List.length_map _)))
  obtain ⟨counted, less⟩ := winding.counted.add observe c₁.panel.frame pending few
  exact ⟨⟨Panel.sound_actAll winding.sound polled.handled, handles.trans winding.dropped, counted⟩,
    by omega⟩

theorem Turned.sound_next (sound : c.panel.console.machine.Sound)
    (went : Turned observe (some limit) progress c stretches (.next next c₁)) :
    c₁.panel.console.machine.Sound := by
  obtain ⟨commands, d, first, second, p, -, polled, done, -⟩ := went.adds_next
  have behind := Panel.sound_act (Panel.sound_actAll sound polled) d
  rw [done] at behind
  exact behind

/-- **A turn behind which the run goes on takes a command or a cycle off what is left.** -/
theorem Turned.unspent_lt (winding : Winding limit progress c)
    (went : Turned observe (some limit) progress c stretches (.next next c₁)) :
    Winding limit next c₁ ∧ unspent limit next c₁.channel < unspent limit progress c.channel := by
  have sound := went.sound_next winding.sound
  cases went with
  | @waited commands report p ch others _ polled stop pause rest =>
    obtain ⟨behind, poll⟩ := polled.winding observe winding
    cases rest with
    | @done ch' command report' p' received handled =>
      rcases Channel.wait_dropped behind.dropped with ⟨c, ch'', came, dropped, pending⟩ | ⟨_, closed⟩
      · cases received.symm.trans came
        have single := Panel.cycles_of_command (d := .command command) handled rfl
        have few := Nat.le_trans single List.count_le_length
        obtain ⟨counted, less⟩ := behind.counted.add observe p'.frame pending few
        exact ⟨⟨sound, dropped, counted⟩, Nat.lt_of_lt_of_le less poll⟩
      · cases received.symm.trans closed
  | @ran commands report p ch others _ polled stop pause rest =>
    obtain ⟨behind, poll⟩ := polled.winding observe winding
    obtain ⟨more, inside, same⟩ := rest.spends behind.sound
    have dropped : ch.handles = 0 := behind.dropped
    have counted : Counted limit (progress.add observe report p.frame) ch := behind.counted
    rw [← same] at dropped counted
    have counted' : Counted limit next c₁.channel := by
      unfold Counted at counted ⊢
      omega
    have less : unspent limit next c₁.channel <
        unspent limit (progress.add observe report p.frame) ch := by
      unfold unspent
      rw [same]
      omega
    exact ⟨⟨sound, dropped, counted'⟩, Nat.lt_of_lt_of_le less poll⟩

/-- Nobody waits for ever where no handle is left. -/
theorem Turned.not_silent (dropped : c.channel.handles = 0) :
    ¬ Turned observe (some limit) progress c stretches .silent := by
  intro went
  cases went with
  | @waited commands report p ch others _ polled stop pause rest =>
    have none : ch.handles = 0 := polled.channel.2.trans dropped
    cases rest with
    | silent received =>
      rcases Channel.wait_dropped none with ⟨c, _, came, -⟩ | ⟨_, closed⟩
      · cases received.symm.trans came
      · cases received.symm.trans closed
  | ran _ _ _ rest => cases rest

/-! ## 5. Runs -/

/-- **A run ends within as many turns as commands and cycles are left**, and one more. -/
theorem exists_turnsFrom (winding : Winding limit progress c) {turns : Nat}
    (enough : unspent limit progress c.channel < turns) :
    ∃ last, turnsFrom observe (some limit) progress c turns = some last := by
  induction turns generalizing progress c with
  | zero => exact absurd enough (Nat.not_lt_zero _)
  | succ turns ih =>
    rw [turnsFrom]
    rcases went : turn observe (some limit) progress c with ⟨next, c₁⟩ | ⟨result, last, c₁⟩ | _
    · obtain ⟨stretches, turned⟩ := turned_iff.mp went
      obtain ⟨winding', less⟩ := turned.unspent_lt winding
      exact ih winding' (by omega)
    · exact ⟨_, rfl⟩
    · obtain ⟨stretches, turned⟩ := turned_iff.mp went
      exact absurd turned (Turned.not_silent winding.dropped)

/-- A poll of a queue to which nothing comes leaves nothing pending. -/
theorem Polls.pending_eq_zero {commands : List Command} {report : BatchReport}
    (polled : c.Polls commands report c₁) (none : c.channel.upcoming = []) :
    c₁.channel.pending = 0 := by
  obtain ⟨ch, taken, looked⟩ := polled.taken
  have upcoming : c₁.channel.upcoming = [] := Channel.upcoming_look (taken.upcoming none) looked
  unfold Channel.pending
  rw [polled.queue_eq_nil, upcoming]
  rfl

/-- Where nothing is to come, the first turn takes the whole queue, and its batch a cycle. -/
theorem Turned.winding_of_queue (sound : c.panel.console.machine.Sound)
    (dropped : c.channel.handles = 0) (none : c.channel.upcoming = [])
    (went : Turned observe (some limit) ⟨0, 0, start⟩ c stretches (.next next c₁)) :
    Winding limit next c₁ ∧ unspent limit next c₁.channel < limit.toNat := by
  have sound' := went.sound_next sound
  cases went with
  | @waited commands report p ch others _ polled stop pause rest =>
    have empty : ch.pending = 0 := polled.pending_eq_zero none
    have zero : ch.handles = 0 := polled.channel.2.trans dropped
    cases rest with
    | done received _ =>
      rcases Channel.wait_dropped zero with ⟨c, ch', came, -, pending⟩ | ⟨_, closed⟩
      · omega
      · cases received.symm.trans closed
  | @ran commands report p ch others _ polled stop pause rest =>
    have empty : ch.pending = 0 := polled.pending_eq_zero none
    have zero : ch.handles = 0 := polled.channel.2.trans dropped
    have behind : p.console.machine.Sound := Panel.sound_actAll sound polled.handled
    obtain ⟨more, inside, same⟩ := rest.spends behind
    rw [← same] at empty zero
    have small := limit.toNat_lt
    refine ⟨⟨sound', zero, ?_⟩, ?_⟩
    · unfold Counted
      omega
    · unfold unspent
      omega

/-- **So does one that begins**, if nothing is to come, or if a word of 64 bits is wide enough for
    what is pending and the budget. -/
theorem exists_turnsFrom_start (sound : c.panel.console.machine.Sound)
    (dropped : c.channel.handles = 0)
    (counted : c.channel.upcoming = [] ∨
      limit.toNat + c.channel.pending < 0x10000000000000000) (observe : σ → Frame → σ) (start : σ) :
    ∃ last, turnsFrom observe (some limit) ⟨0, 0, start⟩ c
      (limit.toNat + c.channel.pending + 1) = some last := by
  rcases counted with none | room
  · rw [turnsFrom]
    rcases went : turn observe (some limit) ⟨0, 0, start⟩ c with ⟨next, c₁⟩ | ⟨result, last, c₁⟩ | _
    · obtain ⟨stretches, turned⟩ := turned_iff.mp went
      obtain ⟨winding, less⟩ := turned.winding_of_queue sound dropped none
      exact exists_turnsFrom winding (by omega)
    · exact ⟨_, rfl⟩
    · obtain ⟨stretches, turned⟩ := turned_iff.mp went
      exact absurd turned (Turned.not_silent dropped)
  · have zero : (0 : UInt64).toNat = 0 := UInt64.toNat_zero
    refine exists_turnsFrom ⟨sound, dropped, ?_⟩ ?_
    · unfold Counted
      simp only [zero]
      omega
    · unfold unspent
      simp only [zero]
      omega

/-! ## 6. Batches of a run -/

/-- The batches that a run starts: each with what the run had counted by then, its cycles, and the
    panel on which it starts. -/
inductive Starts (observe : σ → Frame → σ) (limit : UInt64) :
    Progress σ → Controller → UInt64 → UInt32 → Panel → Prop where
  | here {progress : Progress σ} {c : Controller} {commands : List Command} {report : BatchReport}
      {p : Panel} {ch : Channel} {cycles : UInt32} (polled : c.Polls commands report ⟨p, ch⟩)
      (stop : p.stopPending = false) (pause : p.paused = false)
      (awake : p.console.machine.halted = false)
      (size : batchSize p.console.machine.batchLength (some limit)
        (progress.add observe report p.frame).cycles = some cycles) :
      Starts observe limit progress c (progress.add observe report p.frame).cycles cycles p
  | later {progress next : Progress σ} {c c₁ : Controller} {spent : UInt64} {cycles : UInt32}
      {p : Panel} (went : turn observe (some limit) progress c = .next next c₁)
      (rest : Starts observe limit next c₁ spent cycles p) :
      Starts observe limit progress c spent cycles p

/-- **Every batch that a run starts has a cycle at least, and does one or finds no opcode.** -/
theorem Starts.works (h : Starts observe limit progress c spent cycles p)
    (sound : c.panel.console.machine.Sound) : Works limit spent cycles p := by
  induction h with
  | here polled _ _ awake size =>
    exact .of_size (Panel.sound_actAll sound polled.handled) awake size
  | later went _ ih =>
    obtain ⟨_, turned⟩ := turned_iff.mp went
    exact ih (turned.sound_next sound)

/-- With a batch that fails the run is over. -/
theorem Starts.fails {e : MachineError} (h : Starts observe limit progress c spent cycles p)
    (batch : p.runBatch cycles = (.error e, q)) :
    ∃ turns progress' c',
      turnsFrom observe (some limit) progress c turns = some (.error e, progress', c') := by
  induction h with
  | here polled stop pause awake size =>
    have course := Course.last (.ran polled stop pause (.failed awake size batch))
    obtain ⟨turns, run⟩ := course.turnsFrom_eq
    exact ⟨turns, _, _, run⟩
  | later went _ ih =>
    obtain ⟨turns, progress', c', run⟩ := ih batch
    refine ⟨turns + 1, progress', c', ?_⟩
    rw [turnsFrom, went]
    exact run

/-- **Under a budget, and with nobody left who could send a command, a run ends.** Whatever the
    latches are and whatever stands in the queue, it takes no more turns than there are commands
    pending and cycles in its budget, and one. Each batch that it starts is cut to what the budget
    leaves, has a cycle at least, and does one; or it fails, and the run with it. Commands that were
    sent before the last handle went and are still on their way are commands pending; only if there
    are any must a word of 64 bits be wide enough to count them on top of the budget. -/
theorem run_terminates (reachable : c.panel.console.machine.Reachable)
    (dropped : c.channel.handles = 0)
    (counted : c.channel.upcoming = [] ∨
      limit.toNat + c.channel.pending < 0x10000000000000000) (observe : σ → Frame → σ) (start : σ) :
    ∃ result shown c',
      runFor (limit.toNat + c.channel.pending + 1) observe start (some limit) c =
        some (result, shown, c') ∧
      run? observe start (some limit) c = some (result, shown, c') ∧
      ∀ spent cycles p, Starts observe limit ⟨0, 0, start⟩ c spent cycles p →
        Works limit spent cycles p ∧
        ∀ e q, p.runBatch cycles = (.error e, q) → result = .error e := by
  have sound := Machine.sound_of_reachable reachable
  obtain ⟨⟨result, progress', behind⟩, run⟩ :=
    exists_turnsFrom_start sound dropped counted observe start
  have enough : enoughTurns (some limit) c = limit.toNat + c.channel.pending + 1 + 1 := rfl
  rcases concluded : conclude (result, progress', behind) with ⟨outcome, shown, c'⟩
  refine ⟨outcome, shown, c', ?_, ?_, ?_⟩
  · rw [runFor_eq, run, Option.map_some, concluded]
  · rw [run?, enough, runFor_eq, turnsFrom_add run 1, Option.map_some, concluded]
  · intro spent cycles p starts
    refine ⟨starts.works sound, ?_⟩
    intro e q batch
    obtain ⟨turns, last, c'', failed⟩ := starts.fails batch
    have more := turnsFrom_add run turns
    rw [Nat.add_comm, turnsFrom_add failed] at more
    cases more
    cases concluded
    rfl

/-- A paused machine whose batches were set to no cycle at all, and what was sent to it before the
    last handle went: a pause, a reset and a resume. -/
def abandoned : Controller :=
  ⟨⟨⟨Machine.powerOn.setBatchLength 0, .blank none⟩, .fast, true, false⟩,
    .awaiting [.pause, .hardReset, .resume] [] 0⟩

/-- Three cycles are to be done, one at a time. -/
theorem run_terminates_abandoned :
    ∃ (result : Except MachineError RunReport) (shown : Nat) (c' : Controller) (p : Panel),
      runFor 7 (fun n _ => n + 1) 0 (some 3) abandoned = some (result, shown, c') ∧
      Starts (fun n _ => n + 1) 3 ⟨0, 0, 0⟩ abandoned 0 1 p ∧ Works 3 0 1 p := by
  have reachable : abandoned.panel.console.machine.Reachable :=
    .serve _ (.setBatchLength 0) .powerOn
  have handled : abandoned.panel.actAll .none
      ([Command.pause, .hardReset, .resume].map .command) = (.ok .none, _) := rfl
  have polled : abandoned.Polls _ .none ⟨_, .awaiting [] [] 0⟩ := polls_awaiting [] 0 handled
  have size (frame : Frame) : batchSize 1 (some 3)
      ((⟨0, 0, 0⟩ : Progress Nat).add (fun n _ => n + 1) .none frame).cycles = some 1 := by
    rw [add_none]
    decide
  have starts : Starts (fun n _ => n + 1) 3 ⟨0, 0, 0⟩ abandoned _ 1 _ :=
    .here polled rfl rfl rfl (size _)
  rw [add_none] at starts
  obtain ⟨result, shown, c', run, -, batches⟩ :=
    run_terminates reachable rfl (.inl rfl) (fun n _ => n + 1) 0
  exact ⟨result, shown, c', _, run, starts, (batches _ _ _ starts).1⟩

end Controller
end Retro24
