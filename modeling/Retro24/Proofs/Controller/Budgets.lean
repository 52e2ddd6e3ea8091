/-
  File:      Retro24/Proofs/Controller/Budgets.lean
  Subject:   The budget of a run bounds its batches, and nothing else does.

  * `Turned.adds_next`, `Turned.adds_over`: what a turn adds to the count of a run.
  * `Turned.next_le`, `Course.cycles_le`: a batch stays within what the budget leaves, so that a run
    goes beyond its budget by single steps only; `Course.cycles_behind_batch`: only by those behind
    its last batch.
  * `budget_bounds_batches`: the same of every run that ends without an error, and that a run
    without single steps keeps to its budget.
  * `steps_overrun_budget`: the steps of one poll are all done, whatever the budget leaves.
-/
import Retro24.Proofs.Controller.Accounts
import Retro24.Proofs.Controller.Undisturbed

namespace Retro24

namespace Panel

variable {p q : Panel} {report : BatchReport} {ds : List Deed}

/-- Commands report one cycle at most for each single step; and exactly those that are done, unless
    there are more of them than a word of 32 bits can count. -/
theorem cycles_of_commands (h : p.actAll .none ds = (.ok report, q))
    (commands : ∀ d ∈ ds, d.isBatch = false) :
    report.cycles.toNat ≤ ds.count (.command .step) ∧
      (ds.count (.command .step) < 0x100000000 →
        report.cycles.toNat = (p.attempts ds).countP Cpu.runsHere) := by
  have word : report.cycles = UInt32.ofNat (p.spent ds) :=
    (cycles_of_actAll h).trans (UInt32.zero_add _)
  have bound : p.spent ds ≤ ds.count (.command .step) :=
    Nat.le_trans (p.spent_le_length ds) (p.length_attempts_commands commands)
  rw [word, ← spent_eq_countP h]
  constructor
  · rw [UInt32.toNat_ofNat']
    exact Nat.le_trans (Nat.mod_le _ _) bound
  · exact fun few => UInt32.toNat_ofNat_of_lt' (Nat.lt_of_le_of_lt bound few)

/-- A command reports one cycle at most, and only if it is a single step. -/
theorem cycles_of_command {d : Deed} (h : p.act d = (.ok report, q)) (command : d.isBatch = false) :
    report.cycles.toNat ≤ [d].count (.command .step) := by
  have single : ∀ d' ∈ [d], d'.isBatch = false := by
    intro d' inside
    rw [List.mem_singleton.mp inside]
    exact command
  exact (cycles_of_commands (actAll_singleton h) single).1

/-- A batch reports no more cycles than were asked for. -/
theorem cycles_of_batch {cycles : UInt32} (h : p.act (.batch cycles) = (.ok report, q)) :
    report.cycles.toNat ≤ cycles.toNat := by
  rw [act, runBatch_eq] at h
  have ran := (Console.runBatch_result p.console cycles).symm.trans (Prod.mk.inj h).1
  exact UInt32.le_iff_toNat_le.mp (Machine.runBatch_le ran)

end Panel

namespace Controller

variable {σ : Type} {observe : σ → Frame → σ} {start : σ} {budget : Option UInt64} {limit : UInt64}
  {progress next progress' : Progress σ} {c c₁ c' : Controller} {reason : RunEnd}
  {stretches : List (List Deed)}

/-! ## 1. One turn -/

/-- **What a turn adds behind which the run goes on**: the report of its poll, and then the report
    of the command that was waited for or of the batch. -/
theorem Turned.adds_next (went : Turned observe budget progress c stretches (.next next c₁)) :
    ∃ (commands : List Command) (d : Deed) (first second : BatchReport) (p : Panel),
      stretches = [commands.map .command, [d]] ∧
      c.panel.actAll .none (commands.map .command) = (.ok first, p) ∧
      p.act d = (.ok second, c₁.panel) ∧
      next.cycles = progress.cycles + first.cycles.toUInt64 + second.cycles.toUInt64 ∧
      ∀ cycles, d = .batch cycles → batchSize p.console.machine.batchLength budget
        (progress.cycles + first.cycles.toUInt64) = some cycles := by
  cases went with
  | waited polled _ _ rest =>
    cases rest with
    | done _ handled => exact ⟨_, .command _, _, _, _, rfl, polled.handled, handled, rfl, nofun⟩
  | ran polled _ _ rest =>
    cases rest with
    | done _ size batch =>
      refine ⟨_, .batch _, _, _, _, rfl, polled.handled, batch, rfl, fun cycles same => ?_⟩
      cases same
      exact size

/-- What a turn adds that ends a run without an error: the report of its poll. -/
theorem Turned.adds_over
    (went : Turned observe budget progress c stretches (.over (.ok reason) progress' c')) :
    ∃ (commands : List Command) (report : BatchReport) (p : Panel),
      stretches = [commands.map .command] ∧
      c.panel.actAll .none (commands.map .command) = (.ok report, p) ∧
      progress'.cycles = progress.cycles + report.cycles.toUInt64 := by
  cases went with
  | stopped polled _ => exact ⟨_, _, _, rfl, polled.handled, rfl⟩
  | waited polled _ _ rest =>
    cases rest with
    | closed _ => exact ⟨_, _, _, rfl, polled.handled, rfl⟩
  | ran polled _ _ rest =>
    cases rest with
    | halted _ => exact ⟨_, _, _, rfl, polled.handled, rfl⟩
    | spent _ _ => exact ⟨_, _, _, rfl, polled.handled, rfl⟩

/-- A batch is cut to what the budget leaves. -/
theorem batchSize_le {batchLength cycles : UInt32} {spent : UInt64}
    (size : batchSize batchLength (some limit) spent = some cycles) :
    spent.toNat + cycles.toNat ≤ limit.toNat := by
  by_cases full : limit ≤ spent
  · cases size.symm.trans (batchSize_of_spent batchLength full)
  · rw [UInt64.le_iff_toNat_le] at full
    have sum : spent.toNat + (limit.toNat - spent.toNat) = limit.toNat := by omega
    have cut := (left_of_batchSize size sum).2
    omega

/-- A count that wraps around is smaller than the sum. -/
theorem toNat_addCycles_le (spent : UInt64) (cycles : UInt32) :
    (spent + cycles.toUInt64).toNat ≤ spent.toNat + cycles.toNat := by
  rw [UInt64.toNat_add, UInt32.toNat_toUInt64]
  exact Nat.mod_le _ _

theorem toNat_addCycles {spent : UInt64} {cycles : UInt32}
    (room : spent.toNat + cycles.toNat < 0x10000000000000000) :
    (spent + cycles.toUInt64).toNat = spent.toNat + cycles.toNat := by
  rw [UInt64.toNat_add, UInt32.toNat_toUInt64, Nat.mod_eq_of_lt room]

/-- The single steps of a turn behind which the run goes on. -/
theorem count_steps (commands : List Command) (d : Deed) :
    [commands.map Deed.command, [d]].flatten.count (.command .step) =
      (commands.map Deed.command).count (.command .step) + [d].count (.command .step) := by
  rw [List.flatten_cons, List.count_append, List.flatten_singleton]

/-- **A turn takes a run beyond its budget by single steps only**, and not at all if it runs a
    batch. -/
theorem Turned.next_le
    (went : Turned observe (some limit) progress c stretches (.next next c₁)) :
    next.cycles.toNat ≤
        max progress.cycles.toNat limit.toNat + stretches.flatten.count (.command .step) ∧
      ∀ cycles, .batch cycles ∈ stretches.flatten → next.cycles.toNat ≤ limit.toNat := by
  obtain ⟨commands, d, first, second, p, rfl, polled, done, sum, size⟩ := went.adds_next
  have poll := (Panel.cycles_of_commands polled (no_batch_of_commands commands)).1
  have part := toNat_addCycles_le progress.cycles first.cycles
  have whole := toNat_addCycles_le (progress.cycles + first.cycles.toUInt64) second.cycles
  rw [sum, count_steps]
  cases d with
  | command c =>
    have single := Panel.cycles_of_command done rfl
    refine ⟨by omega, fun cycles inside => ?_⟩
    rw [List.flatten_cons, List.flatten_singleton] at inside
    rcases List.mem_append.mp inside with inside | inside
    · exact absurd (no_batch_of_commands commands _ inside) nofun
    · cases List.mem_singleton.mp inside
  | batch cycles =>
    -- the poll in front of it has left something of the budget, or there would be no batch
    have fits := batchSize_le (size cycles rfl)
    have less := Panel.cycles_of_batch done
    exact ⟨by omega, fun _ _ => by omega⟩

/-- A turn counts exactly the cycles that it does, as long as the words are wide enough. -/
theorem Turned.next_exact
    (went : Turned observe (some limit) progress c stretches (.next next c₁))
    (few : ∀ ds ∈ stretches, ds.count (.command .step) < 0x100000000)
    (room : max progress.cycles.toNat limit.toNat +
      stretches.flatten.count (.command .step) < 0x10000000000000000) :
    next.cycles.toNat =
      progress.cycles.toNat + (c.panel.attempts stretches.flatten).countP Cpu.runsHere := by
  obtain ⟨commands, d, first, second, p, rfl, polled, done, sum, size⟩ := went.adds_next
  obtain ⟨poll, exactly⟩ := Panel.cycles_of_commands polled (no_batch_of_commands commands)
  have here := exactly (few _ List.mem_cons_self)
  rw [count_steps] at room
  have tried : c.panel.attempts [commands.map Deed.command, [d]].flatten =
      c.panel.attempts (commands.map .command) ++ p.cpu.attempts d.cycles := by
    rw [List.flatten_cons, List.flatten_singleton, Panel.attempts_append polled,
      Panel.attempts_cons_ok [] done, Panel.attempts, List.append_nil]
  have part : (progress.cycles + first.cycles.toUInt64).toNat =
      progress.cycles.toNat + first.cycles.toNat := toNat_addCycles (by omega)
  have fits : (progress.cycles + first.cycles.toUInt64).toNat + second.cycles.toNat <
      0x10000000000000000 := by
    cases d with
    | command c =>
      have single := Panel.cycles_of_command done rfl
      omega
    | batch cycles =>
      have cut := batchSize_le (size cycles rfl)
      have less := Panel.cycles_of_batch done
      have small := limit.toNat_lt
      omega
  rw [sum, toNat_addCycles fits, part, tried, List.countP_append, ← here, ← Panel.cycles_act done,
    Nat.add_assoc]

/-! ## 2. Runs -/

/-- **A run goes beyond its budget by single steps only.** -/
theorem Course.cycles_le
    (course : Course observe (some limit) progress c stretches (.ok reason) progress' c') :
    progress'.cycles.toNat ≤
      max progress.cycles.toNat limit.toNat + stretches.flatten.count (.command .step) := by
  generalize ended : (.ok reason : Except MachineError RunEnd) = result at course
  induction course with
  | last went =>
    cases ended
    obtain ⟨commands, report, p, rfl, polled, sum⟩ := went.adds_over
    have poll := (Panel.cycles_of_commands polled (no_batch_of_commands commands)).1
    rw [List.flatten_singleton, sum]
    exact Nat.le_trans (toNat_addCycles_le _ _) (by omega)
  | more went _ ih =>
    have turn := went.next_le.1
    have rest := ih ended
    rw [List.flatten_append, List.count_append]
    omega

/-- **Behind its last batch a run is within its budget**, so that only the single steps behind it
    take the run beyond. -/
theorem Course.cycles_behind_batch
    (course : Course observe (some limit) progress c stretches (.ok reason) progress' c')
    {front back : List Deed} {cycles : UInt32}
    (split : stretches.flatten = front ++ .batch cycles :: back) :
    progress'.cycles.toNat ≤ limit.toNat + back.count (.command .step) := by
  generalize ended : (.ok reason : Except MachineError RunEnd) = result at course
  induction course generalizing front with
  | last went =>
    cases ended
    obtain ⟨commands, report, p, rfl, -, -⟩ := went.adds_over
    have inside : .batch cycles ∈ commands.map Deed.command := by
      have flat : [commands.map Deed.command].flatten = commands.map .command :=
        List.flatten_singleton
      rw [← flat, split]
      exact List.mem_append_right front List.mem_cons_self
    exact absurd (no_batch_of_commands commands _ inside) nofun
  | @more progress next _ c c₁ _ stretches others result went rest ih =>
    subst ended
    rw [List.flatten_append] at split
    -- the batch stands in a later turn, at the very beginning of the next one, or in this turn
    rcases List.append_eq_append_iff.mp split with ⟨inner, -, later⟩ | ⟨inner, here, later⟩
    · exact ih later rfl
    rcases List.cons_eq_append_iff.mp later with ⟨-, whole⟩ | ⟨inner, rfl, rfl⟩
    · have later' : others.flatten = [] ++ .batch cycles :: back := whole
      exact ih later' rfl
    · have inside : .batch cycles ∈ stretches.flatten := by
        rw [here]
        exact List.mem_append_right front List.mem_cons_self
      have within := went.next_le.2 cycles inside
      have bound := rest.cycles_le
      rw [List.count_append]
      omega

/-- **A run counts exactly the cycles that it does**, as long as the words are wide enough. -/
theorem Course.cycles_exact
    (course : Course observe (some limit) progress c stretches (.ok reason) progress' c')
    (few : ∀ ds ∈ stretches, ds.count (.command .step) < 0x100000000)
    (room : max progress.cycles.toNat limit.toNat +
      stretches.flatten.count (.command .step) < 0x10000000000000000) :
    progress'.cycles.toNat =
      progress.cycles.toNat + (c.panel.attempts stretches.flatten).countP Cpu.runsHere := by
  generalize ended : (.ok reason : Except MachineError RunEnd) = result at course
  induction course with
  | last went =>
    cases ended
    obtain ⟨commands, report, p, rfl, polled, sum⟩ := went.adds_over
    obtain ⟨poll, exactly⟩ := Panel.cycles_of_commands polled (no_batch_of_commands commands)
    have here := exactly (few _ List.mem_cons_self)
    rw [List.flatten_singleton] at room ⊢
    rw [sum, toNat_addCycles (by omega), here]
  | @more progress next _ c c₁ _ stretches others result went _ ih =>
    obtain ⟨reports, done, -⟩ := went.does_next
    obtain ⟨report, flat⟩ := done.actAll_flatten
    rw [List.flatten_append, List.count_append] at room
    have bound := went.next_le.1
    have turn :=
      went.next_exact (fun ds inside => few ds (List.mem_append_left _ inside)) (by omega)
    have rest := ih (fun ds inside => few ds (List.mem_append_right _ inside)) (by omega) ended
    rw [List.flatten_append, Panel.attempts_append flat, List.countP_append, rest, turn,
      Nat.add_assoc]

/-- **The budget bounds the batches of a run.** A run that ends without an error counts no more
    cycles than its budget has, and one for each single step behind its last batch. If it carries
    out no single step, it does as many cycles as it counts, and no more than its budget has. -/
theorem budget_bounds_batches {summary : RunReport} {shown : σ}
    (h : Ends observe start (some limit) c (.ok summary, shown, c')) :
    (∃ stretches, Performs observe start (some limit) c stretches) ∧
    ∀ stretches, Performs observe start (some limit) c stretches →
      summary.cycles.toNat ≤ limit.toNat + stretches.flatten.count (.command .step) ∧
      (∀ front cycles back, stretches.flatten = front ++ .batch cycles :: back →
        summary.cycles.toNat ≤ limit.toNat + back.count (.command .step)) ∧
      ((∀ ds ∈ stretches, ds.count (.command .step) < 0x100000000) →
        limit.toNat + stretches.flatten.count (.command .step) < 0x10000000000000000 →
        (c.panel.attempts stretches.flatten).countP Cpu.runsHere = summary.cycles.toNat) ∧
      (.command .step ∉ stretches.flatten →
        (c.panel.attempts stretches.flatten).countP Cpu.runsHere = summary.cycles.toNat ∧
        summary.cycles ≤ limit) := by
  refine ⟨exists_performs h, fun stretches performs => ?_⟩
  obtain ⟨progress', behind, course, cycles, -⟩ := performs.course h
  rw [← cycles]
  have zero : max (0 : UInt64).toNat limit.toNat = limit.toNat := Nat.max_eq_right (Nat.zero_le _)
  have bound : progress'.cycles.toNat ≤
      max (0 : UInt64).toNat limit.toNat + stretches.flatten.count (.command .step) :=
    course.cycles_le
  rw [zero] at bound
  have exactly : (∀ ds ∈ stretches, ds.count (.command .step) < 0x100000000) →
      limit.toNat + stretches.flatten.count (.command .step) < 0x10000000000000000 →
      (c.panel.attempts stretches.flatten).countP Cpu.runsHere = progress'.cycles.toNat := by
    intro few room
    have total := course.cycles_exact few (by rw [← zero] at room; exact room)
    exact (total.trans (Nat.zero_add _)).symm
  refine ⟨bound, fun front cycles back => course.cycles_behind_batch, exactly, fun noStep => ?_⟩
  have none : stretches.flatten.count (.command .step) = 0 := List.count_eq_zero_of_not_mem noStep
  have few : ∀ ds ∈ stretches, ds.count (.command .step) < 0x100000000 := by
    intro ds inside
    have absent : .command .step ∉ ds :=
      fun step => noStep (List.mem_flatten.mpr ⟨ds, inside, step⟩)
    rw [List.count_eq_zero_of_not_mem absent]
    decide
  have small := limit.toNat_lt
  refine ⟨exactly few (by omega), ?_⟩
  rw [UInt64.le_iff_toNat_le]
  omega

/-! ## 3. Steps beyond the budget -/

/-- **The single steps of one poll are all done, whatever the budget leaves**: it is looked at
    behind the poll. -/
theorem steps_overrun_budget {p q : Panel} {cs : List Command} {report : BatchReport}
    (handled : p.actAll .none (cs.map .command) = (.ok report, q)) (stop : q.stopPending = false)
    (pause : q.paused = false) (awake : q.console.machine.halted = false)
    (spent : limit ≤ report.cycles.toUInt64) (observe : σ → Frame → σ) (start : σ)
    (handles : Nat) :
    ∃ frames shown c', Ends observe start (some limit) ⟨p, .awaiting cs [] handles⟩
      (.ok ⟨report.cycles.toUInt64, frames, .budgetExhausted⟩, shown, c') := by
  have sum : ((⟨0, 0, start⟩ : Progress σ).add observe report q.frame).cycles =
      report.cycles.toUInt64 := UInt64.zero_add _
  have size : batchSize q.console.machine.batchLength (some limit)
      ((⟨0, 0, start⟩ : Progress σ).add observe report q.frame).cycles = none := by
    rw [sum]
    exact batchSize_of_spent _ spent
  have went := Turned.ran (polls_awaiting [] handles handled) stop pause (.spent awake size)
  have ends := (Course.last went).ends
  rw [conclude, sum] at ends
  exact ⟨_, _, _, ends⟩

end Controller

/-- Two steps that both find an opcode. -/
theorem Panel.actAll_two_steps {p : Panel} {op op' : Opcode} (awake : p.cpu.halted = false)
    (fetch : p.cpu.fetch = .ok op) (awake' : (p.cpu.perform op).halted = false)
    (fetch' : (p.cpu.perform op).served.fetch = .ok op') :
    ∃ report q, p.actAll .none ([Command.step, .step].map .command) = (.ok report, q) ∧
      report.cycles = 2 ∧ q.cpu = ((p.cpu.perform op).served.perform op').served ∧
      q.paused = p.paused ∧ q.stopPending = p.stopPending := by
  obtain ⟨report₁, p₁, step₁, one₁, cpu₁, pause₁, stop₁⟩ := handle_step_of_fetch awake fetch
  rw [← cpu₁] at fetch' ⊢
  have awake₁ : p₁.cpu.halted = false := by
    rw [cpu₁, Cpu.halted_served]
    exact awake'
  obtain ⟨report₂, p₂, step₂, one₂, cpu₂, pause₂, stop₂⟩ := handle_step_of_fetch awake₁ fetch'
  refine ⟨report₁.andThen report₂, p₂, ?_, ?_, cpu₂, pause₂.trans pause₁, stop₂.trans stop₁⟩
  · have first : p.actAll .none ([Command.step, .step].map .command) =
        p₁.actAll (BatchReport.none.andThen report₁) [.command .step] := actAll_cons_ok _ step₁
    have second : p₁.actAll report₁ [.command .step] = (.ok (report₁.andThen report₂), p₂) :=
      actAll_cons_ok [] step₂
    rw [first, BatchReport.none_andThen]
    exact second
  · show report₁.cycles + report₂.cycles = 2
    rw [one₁, one₂]
    rfl

namespace Controller

/-- Two steps under a budget of one cycle, which both do theirs. -/
theorem steps_overrun_budget_idling :
    ∃ (c c' : Controller) (frames : UInt64) (shown : Nat),
      c.panel.console.machine = .idling ∧ c.panel.paused = false ∧
      c.channel = .awaiting [.step, .step] [] 1 ∧
      Ends (fun n _ => n + 1) 0 (some 1) c (.ok ⟨2, frames, .budgetExhausted⟩, shown, c') ∧
      ¬ (2 : UInt64) ≤ 1 := by
  obtain ⟨awake, -⟩ := Machine.idling_code
  obtain ⟨fetch, -, fetch'⟩ := Machine.idling_fetch
  obtain ⟨report, q, handled, two, cpu, pause, stop⟩ :=
    Panel.actAll_two_steps (p := ⟨⟨.idling, .blank none⟩, .fast, false, false⟩) awake fetch awake
      fetch'
  have awake' : q.cpu.halted = false := by
    rw [cpu, Cpu.halted_served]
    exact (Cpu.halted_served _).trans awake
  have spent : (1 : UInt64) ≤ report.cycles.toUInt64 := by
    rw [two]
    decide
  obtain ⟨frames, shown, c', ends⟩ :=
    steps_overrun_budget handled stop pause awake' spent (fun n _ => n + 1) 0 1
  rw [two] at ends
  exact ⟨_, c', frames, shown, rfl, rfl, rfl, ends, by decide⟩

/-- One batch of one cycle, which is all that the budget has. -/
theorem budget_bounds_batches_idling :
    ∃ (c c' : Controller) (summary : RunReport) (shown : Nat) (stretches : List (List Deed)),
      c.panel.console.machine = .idling ∧
      Ends (fun n _ => n + 1) 0 (some 1) c (.ok summary, shown, c') ∧
      Performs (fun n _ => n + 1) 0 (some 1) c stretches ∧ .command .step ∉ stretches.flatten ∧
      (c.panel.attempts stretches.flatten).countP Cpu.runsHere = summary.cycles.toNat ∧
      summary.cycles ≤ 1 := by
  let c : Controller := .start ⟨.idling, .blank none⟩
  have alone : c.Alone := ⟨⟨rfl, rfl, rfl⟩, rfl⟩
  have filled : 0 < Machine.idling.batchLength.toNat := by
    rw [Machine.idling_eq]
    decide +kernel
  have batched : Cpu.Batched _ (1 : UInt64).toNat c.panel.cpu _ 1 _ _ :=
    Machine.idling_batched filled
  obtain ⟨result, shown, c', ends, comes, -, stretches, performs, -, batches⟩ :=
    alone.ends batched (fun n _ => n + 1) 0
  have noStep : .command .step ∉ stretches.flatten := fun inside => nomatch batches _ inside
  cases result with
  | error e => cases comes
  | ok summary =>
    obtain ⟨-, -, -, exactly⟩ := (budget_bounds_batches ends).2 stretches performs
    exact ⟨c, c', summary, shown, stretches, rfl, ends, performs, noStep, exactly noStep⟩

end Controller
end Retro24
