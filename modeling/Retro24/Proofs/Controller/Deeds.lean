/-
  File:      Retro24/Proofs/Controller/Deeds.lean
  Subject:   What a run does to a panel: it carries out commands and runs batches.

  * `Deed`, `Panel.act`: a command or a batch, and its effect. `stopPending_act`, `paused_act`: what
    deeds do to the two latches; `report_of_handle`: only a single step has something to report.
  * `Panel.actAll`: deeds one after another, until one fails. `actAll_append`, `exists_failed`;
    `stopPending_actAll`, `unpaused_actAll`: the two latches behind them.
  * `Panel.spent`: the cycles of deeds, counted without bounds; `cycles_of_actAll`: a report counts
    them in machine words; `spent_commands_le`: they are at most the single steps.
  * `Panel.Does`: stretches of deeds that all succeed, with the report of each.
-/
import Retro24.Controller
import Retro24.Proofs.Machine.Batches

namespace Retro24

/-! ## 1. One deed -/

/-- What a run does to a panel. -/
inductive Deed where
  | command (c : Command)
  | batch (cycles : UInt32)
  deriving DecidableEq

@[simp]
theorem BatchReport.none_andThen (report : BatchReport) :
    BatchReport.none.andThen report = report := by
  rcases report with ⟨cycles, redrawn, halted⟩
  simp only [andThen, BatchReport.none, UInt32.zero_add, Bool.false_or]

namespace Panel

/-- One deed. -/
def act (p : Panel) : Deed → Except MachineError BatchReport × Panel
  | .command c => p.handle c
  | .batch cycles => p.runBatch cycles

variable {p p' p'' : Panel} {total report : BatchReport} {e : MachineError}

theorem runBatch_eq (p : Panel) (cycles : UInt32) :
    p.runBatch cycles =
      ((p.console.runBatch cycles).1, { p with console := (p.console.runBatch cycles).2 }) := by
  rcases p with ⟨console, speed, paused, stopPending⟩
  rfl

theorem perform_reload (p : Panel) :
    p.perform .reload =
      (p.console.reload.1.map fun _ => .none, { p with console := p.console.reload.2 }) := by
  rw [perform]
  rcases p.console.reload with ⟨(e | loaded), console⟩ <;> rfl

theorem handle_step_result (p : Panel) : (p.handle .step).1 = (p.console.machine.runBatch 1).1 := by
  rw [handle, perform, step, runBatch_eq]
  exact Console.runBatch_result _ 1

theorem handle_step_machine (p : Panel) :
    (p.handle .step).2.console.machine = (p.console.machine.runBatch 1).2 := by
  rw [handle, perform, step, runBatch_eq]
  exact Console.runBatch_machine _ 1

/-- The panel behind a stop. -/
def stopped (p : Panel) : Panel := { p.note (.command .stop) with stopPending := true }

theorem handle_stop (p : Panel) : p.handle .stop = (.ok .none, p.stopped) := rfl

/-- The stop latch is set by a stop only. -/
theorem stopPending_act (p : Panel) (d : Deed) :
    (p.act d).2.stopPending = (p.stopPending || decide (d = .command .stop)) := by
  cases d with
  | batch cycles => rw [act, runBatch_eq, decide_eq_false nofun, Bool.or_false]
  | command c =>
    rw [act, handle]
    cases c with
    | stop => exact (Bool.or_true p.stopPending).symm
    | step =>
      rw [perform, step, runBatch_eq, decide_eq_false nofun, Bool.or_false]
      rfl
    | reload =>
      rw [perform_reload, decide_eq_false nofun, Bool.or_false]
      rfl
    | _ => exact (Bool.or_false p.stopPending).symm

/-- The pause latch is set and taken back by two commands only. -/
theorem paused_act {d : Deed} (p : Panel) (pause : d ≠ .command .pause)
    (resume : d ≠ .command .resume) : (p.act d).2.paused = p.paused := by
  cases d with
  | batch cycles => rw [act, runBatch_eq]
  | command c =>
    rw [act, handle]
    cases c with
    | pause => exact absurd rfl pause
    | resume => exact absurd rfl resume
    | step =>
      rw [perform, step, runBatch_eq]
      rfl
    | reload =>
      rw [perform_reload]
      rfl
    | _ => rfl

/-- A command that fails has not set the stop latch. -/
theorem stopPending_of_error {c : Command} (h : p.handle c = (.error e, p')) :
    p'.stopPending = p.stopPending := by
  have behind := stopPending_act p (.command c)
  have noStop : c ≠ .stop := by
    rintro rfl
    cases h
  rw [act, h, decide_eq_false (fun same => noStop (Deed.command.inj same)), Bool.or_false] at behind
  exact behind

/-- Only a single step has something in its report. -/
theorem report_of_handle {c : Command} (h : p.handle c = (.ok report, p')) (other : c ≠ .step) :
    report = .none := by
  cases c with
  | step => exact absurd rfl other
  | reload =>
    rw [handle, perform] at h
    split at h
    · cases h
    · cases h
      rfl
  | _ =>
    cases h
    rfl

/-! ## 2. Deeds one after another -/

/-- Deeds one after another on top of a report of earlier ones, until one fails. -/
def actAll (total : BatchReport) (p : Panel) : List Deed → Except MachineError BatchReport × Panel
  | [] => (.ok total, p)
  | d :: ds =>
    match p.act d with
    | (.error e, p) => (.error e, p)
    | (.ok report, p) => actAll (total.andThen report) p ds

theorem actAll_cons_ok {d : Deed} (ds : List Deed) (h : p.act d = (.ok report, p')) :
    p.actAll total (d :: ds) = p'.actAll (total.andThen report) ds := by
  simp only [actAll, h]

theorem actAll_cons_error {d : Deed} (ds : List Deed) (h : p.act d = (.error e, p')) :
    p.actAll total (d :: ds) = (.error e, p') := by
  simp only [actAll, h]

theorem exists_of_actAll_cons {d : Deed} {ds : List Deed}
    (h : p.actAll total (d :: ds) = (.ok report, p')) :
    ∃ first behind, p.act d = (.ok first, behind) ∧
      behind.actAll (total.andThen first) ds = (.ok report, p') := by
  rcases done : p.act d with ⟨(e | first), behind⟩
  · rw [actAll_cons_error ds done] at h
    cases h
  · rw [actAll_cons_ok ds done] at h
    exact ⟨first, behind, rfl, h⟩

/-- The stop latch behind deeds that succeed. -/
theorem stopPending_actAll {ds : List Deed} (h : p.actAll total ds = (.ok report, p')) :
    p'.stopPending = (p.stopPending || decide (.command .stop ∈ ds)) := by
  induction ds generalizing p total with
  | nil =>
    cases h
    rw [decide_eq_false nofun, Bool.or_false]
  | cons d ds ih =>
    obtain ⟨first, behind, done, rest⟩ := exists_of_actAll_cons h
    have latch := stopPending_act p d
    rw [done] at latch
    have here : behind.stopPending = (p.stopPending || decide (d = .command .stop)) := latch
    rw [ih rest, here, Bool.or_assoc]
    simp only [List.mem_cons, Bool.decide_or, eq_comm]

/-- A panel that is not paused is paused by a pause only. -/
theorem unpaused_actAll {ds : List Deed} (h : p.actAll total ds = (.ok report, p'))
    (unpaused : p.paused = false) (pause : .command .pause ∉ ds) : p'.paused = false := by
  induction ds generalizing p total with
  | nil =>
    cases h
    exact unpaused
  | cons d ds ih =>
    obtain ⟨first, behind, done, rest⟩ := exists_of_actAll_cons h
    obtain ⟨here, later⟩ := List.ne_and_not_mem_of_not_mem_cons pause
    refine ih rest ?_ later
    have same : (p.act d).2 = behind := congrArg Prod.snd done
    rw [← same]
    by_cases resume : d = .command .resume
    · rw [resume]
      rfl
    · rw [paused_act p (Ne.symm here) resume]
      exact unpaused

theorem actAll_singleton {d : Deed} (h : p.act d = (.ok report, p')) :
    p.actAll .none [d] = (.ok report, p') := by
  rw [actAll_cons_ok [] h, actAll, BatchReport.none_andThen]

/-- Deeds that succeed are followed by the others. -/
theorem actAll_append {ds : List Deed} (h : p.actAll total ds = (.ok report, p')) (es : List Deed) :
    p.actAll total (ds ++ es) = p'.actAll report es := by
  induction ds generalizing p total with
  | nil =>
    cases h
    rfl
  | cons d ds ih =>
    obtain ⟨first, behind, done, rest⟩ := exists_of_actAll_cons h
    rw [List.cons_append, actAll_cons_ok (ds ++ es) done]
    exact ih rest

/-- The cycles that deeds do until one fails, counted without bounds. -/
def spent (p : Panel) : List Deed → Nat
  | [] => 0
  | d :: ds =>
    match p.act d with
    | (.error _, _) => 0
    | (.ok report, p) => report.cycles.toNat + p.spent ds

theorem spent_cons_ok {d : Deed} (ds : List Deed) (h : p.act d = (.ok report, p')) :
    p.spent (d :: ds) = report.cycles.toNat + p'.spent ds := by
  simp only [spent, h]

theorem spent_append {ds : List Deed} (h : p.actAll total ds = (.ok report, p')) (es : List Deed) :
    p.spent (ds ++ es) = p.spent ds + p'.spent es := by
  induction ds generalizing p total with
  | nil =>
    cases h
    exact (Nat.zero_add _).symm
  | cons d ds ih =>
    obtain ⟨first, behind, done, rest⟩ := exists_of_actAll_cons h
    rw [List.cons_append, spent_cons_ok (ds ++ es) done, spent_cons_ok ds done, ih rest,
      Nat.add_assoc]

/-- A report counts the cycles in machine words. -/
theorem cycles_of_actAll {ds : List Deed} (h : p.actAll total ds = (.ok report, p')) :
    report.cycles = total.cycles + UInt32.ofNat (p.spent ds) := by
  induction ds generalizing p total with
  | nil =>
    cases h
    exact (UInt32.add_zero _).symm
  | cons d ds ih =>
    obtain ⟨first, behind, done, rest⟩ := exists_of_actAll_cons h
    rw [ih rest, spent_cons_ok ds done, UInt32.ofNat_add, UInt32.ofNat_toNat, ← UInt32.add_assoc]
    rfl

/-- Commands do no more cycles than there are single steps among them. -/
theorem spent_commands_le (p : Panel) (cs : List Command) :
    p.spent (cs.map .command) ≤ cs.count .step := by
  induction cs generalizing p with
  | nil => exact Nat.le_refl 0
  | cons c cs ih =>
    rcases done : p.act (.command c) with ⟨(e | report), behind⟩
    · simp only [List.map_cons, spent, done]
      exact Nat.zero_le _
    · rw [List.map_cons, spent_cons_ok _ done, List.count_cons, Nat.add_comm]
      refine Nat.add_le_add (ih behind) ?_
      by_cases step : c = .step
      · subst step
        have ran := (handle_step_result p).symm.trans (congrArg Prod.fst done)
        exact UInt32.le_iff_toNat_le.mp (Machine.runBatch_le ran)
      · rw [report_of_handle done step]
        exact Nat.zero_le _

/-! ## 4. Stretches -/

/-- Stretches of deeds that all succeed, with the report of each and the frame behind it. -/
inductive Does : Panel → List (List Deed) → List (BatchReport × Frame) → Panel → Prop where
  | nil (p : Panel) : Does p [] [] p
  | cons {p p' q : Panel} {ds : List Deed} {report : BatchReport} {stretches : List (List Deed)}
      {reports : List (BatchReport × Frame)} (first : p.actAll .none ds = (.ok report, p'))
      (rest : Does p' stretches reports q) :
      Does p (ds :: stretches) ((report, p'.frame) :: reports) q

theorem Does.append {q : Panel} {stretches others : List (List Deed)}
    {reports later : List (BatchReport × Frame)} (h : p.Does stretches reports p')
    (h' : p'.Does others later q) : p.Does (stretches ++ others) (reports ++ later) q := by
  induction h with
  | nil p => exact h'
  | cons first rest ih => exact .cons first (ih h')

end Panel
end Retro24
