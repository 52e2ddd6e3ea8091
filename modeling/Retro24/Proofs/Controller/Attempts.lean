/-
  File:      Retro24/Proofs/Controller/Attempts.lean
  Subject:   The cycles behind the deeds of a run, one by one.

  * `Panel.attempts`: the processor at every instruction that deeds attempt. A step attempts one at
    most, another command none, a batch no more than its length (`length_attempts_commands`).
  * `cycles_act`, `spent_eq_countP`: what a report counts is what was attempted and succeeded.
  * `executed_act`, `executed_actAll`: a journal that admits every entry gets one for each of these
    cycles, and none besides.
  * `Does.cycles_low`, `Does.cycles_exact`: how the reports of a run add up in machine words.
  * `Performs`: the stretches of deeds of a run that ends.
-/
import Retro24.Proofs.Controller.Turns
import Retro24.Proofs.Machine.Partition

namespace Retro24

/-! ## 1. Attempts -/

/-- The cycles that a deed may do. -/
def Deed.cycles : Deed → Nat
  | .command .step => 1
  | .command _ => 0
  | .batch cycles => cycles.toNat

/-- Whether a deed is a batch. -/
def Deed.isBatch : Deed → Bool
  | .command _ => false
  | .batch _ => true

theorem Deed.cycles_of_ne_step {c : Command} (other : c ≠ .step) : cycles (.command c) = 0 := by
  cases c with
  | step => exact absurd rfl other
  | _ => rfl

namespace Panel

/-- The processor of the machine. -/
@[inline] def cpu (p : Panel) : Cpu Bus := p.console.machine.cpu

/-- The processor at every instruction that deeds attempt, until one of them fails. -/
def attempts (p : Panel) : List Deed → List (Cpu Bus)
  | [] => []
  | d :: ds =>
    p.cpu.attempts d.cycles ++
      match p.act d with
      | (.error _, _) => []
      | (.ok _, p) => p.attempts ds

variable {p p' q : Panel} {total report : BatchReport} {e : MachineError} {d : Deed}
  {ds es : List Deed}

theorem attempts_cons_ok (ds : List Deed) (h : p.act d = (.ok report, p')) :
    p.attempts (d :: ds) = p.cpu.attempts d.cycles ++ p'.attempts ds := by
  simp only [attempts, h]

theorem attempts_cons_error (ds : List Deed) (h : p.act d = (.error e, p')) :
    p.attempts (d :: ds) = p.cpu.attempts d.cycles := by
  simp only [attempts, h, List.append_nil]

theorem attempts_append (h : p.actAll total ds = (.ok report, p')) (es : List Deed) :
    p.attempts (ds ++ es) = p.attempts ds ++ p'.attempts es := by
  induction ds generalizing p total with
  | nil =>
    cases h
    rfl
  | cons d ds ih =>
    obtain ⟨first, behind, done, rest⟩ := exists_of_actAll_cons h
    rw [List.cons_append, attempts_cons_ok (ds ++ es) done, attempts_cons_ok ds done, ih rest,
      List.append_assoc]

/-- **Where there is no batch, nothing but the single steps attempts an instruction**, and each of
    them one at most. -/
theorem length_attempts_commands (p : Panel) (commands : ∀ d ∈ ds, d.isBatch = false) :
    (p.attempts ds).length ≤ ds.count (.command .step) := by
  induction ds generalizing p with
  | nil => exact Nat.le_refl 0
  | cons d ds ih =>
    have here : (p.cpu.attempts d.cycles).length ≤ if d = .command .step then 1 else 0 := by
      refine Nat.le_trans (Cpu.length_attempts_le _ _) ?_
      cases d with
      | batch cycles => exact absurd (commands _ List.mem_cons_self) nofun
      | command c =>
        by_cases step : c = .step
        · rw [step]
          exact Nat.le_refl 1
        · rw [Deed.cycles_of_ne_step step]
          exact Nat.zero_le _
    have later := fun q : Panel => ih q fun d inside => commands d (List.mem_cons_of_mem _ inside)
    have split : (d :: ds).count (.command .step) =
        (if d = .command .step then 1 else 0) + ds.count (.command .step) := by
      rw [List.count_cons, Nat.add_comm]
      simp only [beq_iff_eq]
    rw [split]
    rcases done : p.act d with ⟨(e | report), behind⟩
    · rw [attempts_cons_error ds done]
      exact Nat.le_add_right_of_le here
    · rw [attempts_cons_ok ds done, List.length_append]
      exact Nat.add_le_add here (later behind)

/-! ## 2. What is counted -/

/-- A batch counts the attempts that succeed. -/
theorem cycles_of_runBatch {m : Machine} {cycles : UInt32}
    (h : (m.runBatch cycles).1 = .ok report) :
    report.cycles.toNat = (m.cpu.attempts cycles.toNat).countP Cpu.runsHere := by
  obtain ⟨behind, steps⟩ := Machine.runBatch_ok h
  rw [Machine.stepsFrom_eq_run] at steps
  rcases run : m.cpu.run cycles.toNat with ⟨(fault | k), c⟩
  · rw [run] at steps
    cases (Prod.mk.inj steps).1
  · rw [run] at steps
    have count : report.cycles = 0 + UInt32.ofNat k := (Except.ok.inj (Prod.mk.inj steps).1).symm
    have fits : k < 0x100000000 := Nat.lt_of_le_of_lt (Cpu.run_le run) cycles.toNat_lt
    rw [count, UInt32.zero_add, UInt32.toNat_ofNat_of_lt' fits, Cpu.countP_attempts run]

/-- **A deed reports the attempts that succeed**, whatever it does to the counter of the
    processor. -/
theorem cycles_act (h : p.act d = (.ok report, p')) :
    report.cycles.toNat = (p.cpu.attempts d.cycles).countP Cpu.runsHere := by
  cases d with
  | batch cycles =>
    rw [act, runBatch_eq] at h
    exact cycles_of_runBatch ((Console.runBatch_result _ cycles).symm.trans (Prod.mk.inj h).1)
  | command c =>
    by_cases step : c = .step
    · subst step
      have batch : (p.console.machine.runBatch 1).1 = .ok report :=
        (handle_step_result p).symm.trans (congrArg Prod.fst h)
      exact cycles_of_runBatch batch
    · rw [report_of_handle h step, Deed.cycles_of_ne_step step]
      rfl

/-- Deeds do no more cycles than they attempt. -/
theorem spent_le_length (p : Panel) (ds : List Deed) : p.spent ds ≤ (p.attempts ds).length := by
  induction ds generalizing p with
  | nil => exact Nat.le_refl 0
  | cons d ds ih =>
    rcases done : p.act d with ⟨(e | report), behind⟩
    · simp only [spent, done]
      exact Nat.zero_le _
    · rw [spent_cons_ok ds done, attempts_cons_ok ds done, List.length_append, cycles_act done]
      exact Nat.add_le_add List.countP_le_length (ih behind)

/-- The cycles of a single deed fit a word of 32 bits. -/
theorem spent_single_lt (p : Panel) (d : Deed) : p.spent [d] < 0x100000000 := by
  rcases done : p.act d with ⟨(e | report), behind⟩
  · simp only [spent, done]
    exact Nat.zero_lt_succ _
  · rw [spent_cons_ok [] done]
    exact report.cycles.toNat_lt

theorem spent_eq_countP (h : p.actAll total ds = (.ok report, p')) :
    p.spent ds = (p.attempts ds).countP Cpu.runsHere := by
  induction ds generalizing p total with
  | nil => rfl
  | cons d ds ih =>
    obtain ⟨first, behind, done, rest⟩ := exists_of_actAll_cons h
    rw [spent_cons_ok ds done, attempts_cons_ok ds done, List.countP_append, cycles_act done,
      ih rest]

end Panel

/-! ## 3. What is noted -/

/-- Whether an entry is about a cycle. -/
def Entry.isExecuting : Entry → Bool
  | .executing _ _ _ => true
  | _ => false

/-- The number of entries about cycles. -/
def Journal.executed (j : Journal) : Nat := j.newest.countP Entry.isExecuting

namespace Journal

variable {j : Journal}

theorem executed_note (j : Journal) {e : Entry} (other : e.isExecuting = false) :
    (j.note e).executed = j.executed := by
  unfold note
  split
  · exact List.countP_cons_of_neg (by rw [other]; exact Bool.false_ne_true)
  · rfl

theorem Full.noteAll (h : j.Full) {es : List Entry} (all : ∀ e ∈ es, e.isExecuting = true) :
    (j.noteAll es).Full ∧ (j.noteAll es).executed = j.executed + es.length := by
  induction es generalizing j with
  | nil => exact ⟨h, rfl⟩
  | cons e es ih =>
    obtain ⟨full, count⟩ := ih (h.note e) fun e' inside => all e' (List.mem_cons_of_mem _ inside)
    have here : (j.note e).executed = j.executed + 1 := by
      rw [Journal.note, if_pos (h.admits _)]
      exact List.countP_cons_of_pos (all e List.mem_cons_self)
    refine ⟨full, count.trans ?_⟩
    rw [here, List.length_cons]
    omega

end Journal

/-- The reports of a run are about its cycles, one for each that is done. -/
theorem Cpu.narrationFrom_eq {M : Type} [Memory M] (done : List Entry) (c : Cpu M) (n : Nat)
    (before : ∀ e ∈ done, e.isExecuting = true) :
    (∀ e ∈ narrationFrom done c n, e.isExecuting = true) ∧
      (narrationFrom done c n).length = done.length + (c.attempts n).countP runsHere := by
  induction n generalizing done c with
  | zero => exact ⟨fun e inside => before e (List.mem_reverse.mp inside), List.length_reverse⟩
  | succ n ih =>
    rcases c.run_cases with halt | ⟨awake, fault, fetch⟩ | ⟨awake, op, fetch⟩
    · rw [narrationFrom, if_pos halt, attempts_of_halted halt]
      exact ⟨fun e inside => before e (List.mem_reverse.mp inside), List.length_reverse⟩
    · have none : runsHere c = false := by
        rw [runsHere, cycle, fetch]
        rfl
      rw [attempts_of_fault awake fetch, List.countP_singleton, none]
      simp only [narrationFrom, awake, fetch, Bool.false_eq_true, if_false]
      exact ⟨fun e inside => before e (List.mem_reverse.mp inside), List.length_reverse⟩
    · have one : runsHere c = true := by
        rw [runsHere, cycle, fetch]
        rfl
      have behind : ∀ e ∈ (c.tick op).remark :: done, e.isExecuting = true := by
        intro e inside
        rcases List.mem_cons.mp inside with rfl | inside
        · rfl
        · exact before e inside
      obtain ⟨all, count⟩ := ih ((c.tick op).remark :: done) (c.perform op) behind
      rw [attempts_of_fetch awake fetch, List.countP_cons_of_pos one]
      simp only [narrationFrom, awake, fetch, Bool.false_eq_true, if_false]
      refine ⟨all, count.trans ?_⟩
      rw [List.length_cons]
      omega

/-- Watching a processor notes its cycles. -/
theorem Journal.Full.watch {j : Journal} (h : j.Full) (c : Cpu Bus) (n : Nat) :
    (j.watch c n).Full ∧
      (j.watch c n).executed = j.executed + (c.attempts n).countP Cpu.runsHere := by
  obtain ⟨all, count⟩ :=
    Cpu.narrationFrom_eq [] c n fun _ inside => absurd inside List.not_mem_nil
  obtain ⟨full, sum⟩ := h.noteAll all
  rw [Journal.watch, if_pos (h.admits _)]
  refine ⟨full, sum.trans ?_⟩
  rw [count, List.length_nil, Nat.zero_add]

/-- A batch notes its cycles, and a fault or a picture besides. -/
theorem Console.executed_runBatch (c : Console) (full : c.journal.Full) (cycles : UInt32) :
    (c.runBatch cycles).2.journal.Full ∧
      (c.runBatch cycles).2.journal.executed =
        c.journal.executed + (c.machine.cpu.attempts cycles.toNat).countP Cpu.runsHere := by
  rcases c with ⟨machine, journal⟩
  have watched := Journal.Full.watch full machine.cpu cycles.toNat
  rw [runBatch]
  rcases machine.runBatch cycles with ⟨(e | report), behind⟩
  · cases e with
    | cpu fault => exact ⟨watched.1.note _, (Journal.executed_note _ rfl).trans watched.2⟩
    | _ => exact watched
  · cases drawn : report.redrawn with
    | true =>
      simp only [drawn, if_true]
      exact ⟨watched.1.note _, (Journal.executed_note _ rfl).trans watched.2⟩
    | false =>
      simp only [drawn, Bool.false_eq_true, if_false]
      exact watched

/-- An image that is installed is noted, and no cycle. -/
theorem Console.executed_installProgram (c : Console) (full : c.journal.Full) (image : Program) :
    (c.installProgram image).2.journal.Full ∧
      (c.installProgram image).2.journal.executed = c.journal.executed := by
  unfold installProgram
  split
  · exact ⟨(full.note _).note _, (Journal.executed_note _ rfl).trans (Journal.executed_note _ rfl)⟩
  · exact ⟨full, rfl⟩

namespace Panel

variable {p p' q : Panel} {total report : BatchReport} {e : MachineError} {d : Deed}
  {ds es : List Deed}

/-- A change of the clock rate is noted, and no cycle. -/
theorem executed_setRate (p : Panel) (full : p.console.journal.Full) (speed : ClockRate) :
    (p.setRate speed).console.journal.Full ∧
      (p.setRate speed).console.journal.executed = p.console.journal.executed := by
  unfold setRate
  by_cases same : speed = p.speed
  · simp only [if_pos same]
    exact ⟨full, trivial⟩
  · simp only [if_neg same]
    exact ⟨full.note _, Journal.executed_note _ rfl⟩

/-- **A deed notes the attempts that succeed**, also a deed that fails. -/
theorem executed_act (p : Panel) (full : p.console.journal.Full) (d : Deed) :
    (p.act d).2.console.journal.Full ∧
      (p.act d).2.console.journal.executed =
        p.console.journal.executed + (p.cpu.attempts d.cycles).countP Cpu.runsHere := by
  cases d with
  | batch cycles =>
    rw [act, runBatch_eq]
    exact Console.executed_runBatch p.console full cycles
  | command c =>
    have noted : (p.note (.command c)).console.journal.Full := full.note _
    have same : (p.note (.command c)).console.journal.executed = p.console.journal.executed :=
      Journal.executed_note _ rfl
    rw [act, handle]
    cases c with
    | step =>
      obtain ⟨behind, count⟩ := Console.executed_runBatch _ noted 1
      rw [perform, step, runBatch_eq]
      exact ⟨behind, count.trans (congrArg (· + _) same)⟩
    | reload =>
      rw [perform_reload]
      have reloaded : (p.note (.command .reload)).console.reload.2.journal.Full ∧
          (p.note (.command .reload)).console.reload.2.journal.executed =
            (p.note (.command .reload)).console.journal.executed := by
        unfold Console.reload
        split
        · exact ⟨noted, rfl⟩
        · next image _ =>
          have installed := Console.executed_installProgram _ noted image
          split
          · next failed =>
            rw [failed] at installed
            exact installed
          · next done =>
            rw [done] at installed
            exact installed
      exact ⟨reloaded.1, reloaded.2.trans same⟩
    | toggleClockRate | setClockRate =>
      exact ⟨(executed_setRate _ noted _).1, (executed_setRate _ noted _).2.trans same⟩
    | softReset | hardReset =>
      exact ⟨noted.note _, (Journal.executed_note _ rfl).trans same⟩
    | _ => exact ⟨noted, same⟩

theorem executed_actAll (p : Panel) (full : p.console.journal.Full) (total : BatchReport)
    (ds : List Deed) :
    (p.actAll total ds).2.console.journal.executed =
      p.console.journal.executed + (p.attempts ds).countP Cpu.runsHere := by
  induction ds generalizing p total with
  | nil => rfl
  | cons d ds ih =>
    obtain ⟨behind, count⟩ := executed_act p full d
    rcases done : p.act d with ⟨(e | report), p'⟩
    · rw [done] at count
      rw [actAll_cons_error ds done, attempts_cons_error ds done]
      exact count
    · rw [done] at behind count
      rw [actAll_cons_ok ds done, attempts_cons_ok ds done, List.countP_append, ih p' behind,
        ← Nat.add_assoc]
      exact congrArg (· + _) count

/-! ## 4. What a run adds up -/

/-- Deeds that succeed do so on top of every report. -/
theorem exists_actAll (h : p.actAll total ds = (.ok report, p')) (other : BatchReport) :
    ∃ report', p.actAll other ds = (.ok report', p') := by
  induction ds generalizing p total other with
  | nil =>
    cases h
    exact ⟨other, rfl⟩
  | cons d ds ih =>
    obtain ⟨first, behind, done, rest⟩ := exists_of_actAll_cons h
    obtain ⟨report', later⟩ := ih rest (other.andThen first)
    exact ⟨report', (actAll_cons_ok ds done).trans later⟩

variable {stretches : List (List Deed)} {reports : List (BatchReport × Frame)}

/-- Stretches that succeed are their deeds one after another. -/
theorem Does.actAll_flatten (h : p.Does stretches reports q) :
    ∃ report, p.actAll .none stretches.flatten = (.ok report, q) := by
  induction h with
  | nil p => exact ⟨.none, rfl⟩
  | @cons p p' q ds report stretches reports first rest ih =>
    obtain ⟨later, flat⟩ := ih
    obtain ⟨sum, onTop⟩ := exists_actAll flat report
    exact ⟨sum, (actAll_append first stretches.flatten).trans onTop⟩

variable {σ : Type} {observe : σ → Frame → σ}

/-- The cycles of a run in words of 32 bits. -/
theorem Does.cycles_low (h : p.Does stretches reports q) (progress : Controller.Progress σ) :
    (Controller.addAll progress observe reports).cycles.toUInt32 =
      progress.cycles.toUInt32 + UInt32.ofNat (p.spent stretches.flatten) := by
  induction h generalizing progress with
  | nil p => exact (UInt32.add_zero _).symm
  | @cons p p' q ds report stretches reports first rest ih =>
    have here : report.cycles = UInt32.ofNat (p.spent ds) :=
      (cycles_of_actAll first).trans (UInt32.zero_add _)
    have sum : (progress.add observe report p'.frame).cycles.toUInt32 =
        progress.cycles.toUInt32 + report.cycles := by
      show (progress.cycles + report.cycles.toUInt64).toUInt32 = _
      rw [UInt64.toUInt32_add, UInt32.toUInt32_toUInt64]
    have later := ih (progress.add observe report p'.frame)
    rw [List.flatten_cons, spent_append first, UInt32.ofNat_add, ← UInt32.add_assoc, ← here, ← sum]
    exact later

/-- The cycles of a run, when those of each stretch fit a word of 32 bits. -/
theorem Does.cycles_exact (h : p.Does stretches reports q) (progress : Controller.Progress σ)
    (fits : ∀ ds ∈ stretches, ∀ q : Panel, q.spent ds < 0x100000000) :
    (Controller.addAll progress observe reports).cycles =
      progress.cycles + UInt64.ofNat (p.spent stretches.flatten) := by
  induction h generalizing progress with
  | nil p => exact (UInt64.add_zero _).symm
  | @cons p p' q ds report stretches reports first rest ih =>
    have here : report.cycles = UInt32.ofNat (p.spent ds) :=
      (cycles_of_actAll first).trans (UInt32.zero_add _)
    have sum : (progress.add observe report p'.frame).cycles =
        progress.cycles + UInt64.ofNat (p.spent ds) := by
      show progress.cycles + report.cycles.toUInt64 = _
      rw [here, UInt32.toUInt64_ofNat' (fits ds List.mem_cons_self p)]
    have later := ih (progress.add observe report p'.frame)
      fun ds inside => fits ds (List.mem_cons_of_mem _ inside)
    rw [List.flatten_cons, spent_append first, UInt64.ofNat_add, ← UInt64.add_assoc, ← sum]
    exact later

end Panel

/-! ## 5. The deeds of a run -/

namespace Controller

variable {σ : Type} {observe : σ → Frame → σ} {start : σ} {budget : Option UInt64}
  {c c' : Controller} {stretches : List (List Deed)}

/-- The stretches of deeds of a run that ends. -/
def Performs (observe : σ → Frame → σ) (start : σ) (budget : Option UInt64) (c : Controller)
    (stretches : List (List Deed)) : Prop :=
  ∃ result progress' c', Course observe budget ⟨0, 0, start⟩ c stretches result progress' c'

theorem exists_performs {outcome : Except MachineError RunReport × σ × Controller}
    (h : Ends observe start budget c outcome) :
    ∃ stretches, Performs observe start budget c stretches := by
  obtain ⟨stretches, result, progress', c', course, -⟩ := ends_iff.mp h
  exact ⟨stretches, result, progress', c', course⟩

/-- The deeds of a run that ends without an error lead to its summary. -/
theorem Performs.course {summary : RunReport} {shown : σ}
    (performs : Performs observe start budget c stretches)
    (h : Ends observe start budget c (.ok summary, shown, c')) :
    ∃ progress' behind,
      Course observe budget ⟨0, 0, start⟩ c stretches (.ok summary.reason) progress' behind ∧
      progress'.cycles = summary.cycles ∧
      c'.panel =
        behind.panel.note (.runEnded summary.reason summary.cycles summary.frames) := by
  obtain ⟨result, progress', behind, course⟩ := performs
  have same := ends_unique course.ends h
  cases result with
  | error e => cases same
  | ok reason =>
    cases same
    exact ⟨progress', behind, course, rfl, rfl⟩

end Controller

end Retro24
