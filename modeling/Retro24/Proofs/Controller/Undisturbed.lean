/-
  File:      Retro24/Proofs/Controller/Undisturbed.lean
  Subject:   A run that nobody disturbs is the processor going on in batches.

  * `Panel.runBatch_of_run`, `Panel.runBatch_of_fault`: a batch on a panel is a run of the
    processor.
  * `batchSize_of_left`: the size of a batch, in numbers.
  * `course_of_batched`: the batches of a processor are the course of a run. `Course.batched`: and
    every run that nobody disturbs is of this kind.
  * `Alone.ends`: so the run ends, and with what the batches come to.
-/
import Retro24.Proofs.Controller.Attempts
import Retro24.Proofs.Controller.Stops

namespace Retro24

/-! ## 1. Batches on a panel -/

namespace Panel

variable {p : Panel} {cycles : UInt32} {k : Nat} {c : Cpu Bus} {fault : CpuFault}

/-- A batch that succeeds is a run of the processor, and then the draw flag is served. -/
theorem runBatch_of_run (run : p.cpu.run cycles.toNat = (.ok k, c)) :
    ∃ report q, p.runBatch cycles = (.ok report, q) ∧ report.cycles = UInt32.ofNat k ∧
      q.cpu = c.served ∧ q.console.machine.batchLength = p.console.machine.batchLength ∧
      q.paused = p.paused ∧ q.stopPending = p.stopPending := by
  obtain ⟨result, behind, length⟩ := Machine.runBatch_of_run run
  rw [← Console.runBatch_result] at result
  rw [← Console.runBatch_machine] at behind length
  exact ⟨_, _, (p.runBatch_eq cycles).trans (Prod.ext result rfl), rfl, behind, length, rfl, rfl⟩

theorem runBatch_of_fault (run : p.cpu.run cycles.toNat = (.error fault, c)) :
    ∃ q, p.runBatch cycles = (.error (.cpu fault), q) ∧ q.cpu = c := by
  have batch := Machine.runBatch_of_fault run
  have result := (Console.runBatch_result p.console cycles).trans (congrArg Prod.fst batch)
  have behind := (Console.runBatch_machine p.console cycles).trans (congrArg Prod.snd batch)
  exact ⟨_, (p.runBatch_eq cycles).trans (Prod.ext result rfl), congrArg Machine.cpu behind⟩

end Panel

namespace Controller

variable {σ : Type} {observe : σ → Frame → σ} {start : σ} {budget : Option UInt64}
  {limit : UInt64} {progress progress' : Progress σ} {c c' : Controller}
  {result : Except MachineError RunEnd} {stretches : List (List Deed)}

/-! ## 2. Turns that nobody disturbs -/

/-- A controller that nobody disturbs, and nobody has stopped either. -/
structure Alone (c : Controller) : Prop extends Undisturbed c where
  stop : c.panel.stopPending = false

/-- A turn of it is the part behind the poll. -/
theorem Alone.went (alone : c.Alone) {t : Turn σ}
    (ran : Ran observe budget progress c.panel c.channel stretches t) :
    Turned observe budget progress c ([] :: stretches) t := by
  show Turned observe budget progress c (([] : List Command).map .command :: stretches) t
  refine .ran alone.polls alone.stop alone.pause ?_
  rw [add_none]
  exact ran

/-- A poll of it takes nothing. -/
theorem Undisturbed.polls_nothing (h : c.Undisturbed) {commands : List Command}
    {report : BatchReport} (polled : c.Polls commands report c') :
    commands = [] ∧ report = .none ∧ c' = c := by
  have same := polled.poll_eq.symm.trans h.polls.poll_eq
  cases same
  obtain ⟨⟨ch, taken, -⟩, -⟩ := polled
  cases taken with
  | nil => exact ⟨rfl, rfl, rfl⟩
  | cons first _ =>
    have empty : c.channel.look = (none, c.channel) := by
      simp only [Channel.look, Channel.atLook, h.queue, h.upcoming]
    rw [empty] at first
    cases first

/-- And every turn of it goes so. -/
theorem Alone.turned (alone : c.Alone) {t : Turn σ}
    (went : Turned observe budget progress c stretches t) :
    ∃ others, stretches = [] :: others ∧
      Ran observe budget progress c.panel c.channel others t := by
  cases went with
  | failed polled =>
    have same := polled.poll_eq.symm.trans alone.polls.poll_eq
    cases same
  | stopped polled stop =>
    obtain ⟨-, -, rfl⟩ := alone.polls_nothing polled
    exact absurd (stop.symm.trans alone.stop) nofun
  | waited polled _ pause _ =>
    obtain ⟨-, -, rfl⟩ := alone.polls_nothing polled
    exact absurd (pause.symm.trans alone.pause) nofun
  | ran polled _ _ rest =>
    obtain ⟨rfl, rfl, rfl⟩ := alone.polls_nothing polled
    rw [add_none] at rest
    exact ⟨_, rfl, rest⟩

/-- The size of a batch when something is left of the budget. -/
theorem batchSize_of_left {batchLength : UInt32} {spent : UInt64} {left : Nat} (room : 0 < left)
    (sum : spent.toNat + left = limit.toNat) :
    ∃ cycles, batchSize batchLength (some limit) spent = some cycles ∧
      cycles.toNat = min batchLength.toNat left := by
  have below : spent < limit := UInt64.lt_iff_toNat_lt.mpr (by omega)
  have rest : (remaining limit spent).toNat = left := by
    rw [remaining, if_pos below, UInt64.toNat_sub_of_le _ _ (UInt64.le_of_lt below)]
    omega
  have some : remaining limit spent ≠ 0 := by
    intro none
    rw [none, UInt64.toNat_zero] at rest
    omega
  refine ⟨(min batchLength.toUInt64 (remaining limit spent)).toUInt32, ?_, ?_⟩
  · simp only [batchSize, if_neg some]
  · rw [toNat_min_left, rest]

/-- A budget that is spent leaves no batch. -/
theorem batchSize_of_spent (batchLength : UInt32) {spent : UInt64} (full : limit ≤ spent) :
    batchSize batchLength (some limit) spent = none := by
  have beyond : ¬ spent < limit := UInt64.not_lt.mpr full
  simp only [batchSize, remaining, if_neg beyond, if_true]

theorem left_of_batchSize {batchLength cycles : UInt32} {spent : UInt64} {left : Nat}
    (size : batchSize batchLength (some limit) spent = some cycles)
    (sum : spent.toNat + left = limit.toNat) :
    0 < left ∧ cycles.toNat = min batchLength.toNat left := by
  by_cases room : 0 < left
  · obtain ⟨cycles', some, words⟩ := batchSize_of_left room sum
    cases size.symm.trans some
    exact ⟨room, words⟩
  · have full : limit ≤ spent := UInt64.le_iff_toNat_le.mpr (by omega)
    cases size.symm.trans (batchSize_of_spent batchLength full)

/-- The count behind a batch that the budget has room for does not wrap around. -/
theorem toNat_addReport {report : BatchReport} {cycles : UInt32} {k left : Nat}
    (observe : σ → Frame → σ) (frame : Frame) (count : report.cycles = UInt32.ofNat k)
    (bound : k ≤ cycles.toNat) (inside : cycles.toNat ≤ left)
    (sum : progress.cycles.toNat + left = limit.toNat) :
    (progress.add observe report frame).cycles.toNat = progress.cycles.toNat + k ∧
      (progress.add observe report frame).cycles.toNat + (left - k) = limit.toNat := by
  have small := cycles.toNat_lt
  have fits := limit.toNat_lt
  have added : (progress.add observe report frame).cycles.toNat = progress.cycles.toNat + k := by
    show (progress.cycles + report.cycles.toUInt64).toNat = _
    rw [count, UInt64.toNat_add, UInt32.toNat_toUInt64,
      UInt32.toNat_ofNat_of_lt' (Nat.lt_of_le_of_lt bound small)]
    exact Nat.mod_eq_of_lt (by omega)
  exact ⟨added, by omega⟩

/-! ## 3. Runs that nobody disturbs -/

/-- **The batches of a processor are the course of a run** under a budget of which a number of
    cycles is left. -/
theorem course_of_batched (observe : σ → Frame → σ) {length left k : Nat} {cpu cpu' : Cpu Bus}
    {result : Except CpuFault RunEnd} {tried : List (Cpu Bus)}
    (h : Cpu.Batched length left cpu result k cpu' tried) (alone : c.Alone)
    (place : c.panel.cpu = cpu) (size : c.panel.console.machine.batchLength.toNat = length)
    (sum : progress.cycles.toNat + left = limit.toNat) :
    ∃ stretches progress' c',
      Course observe (some limit) progress c stretches (result.mapError .cpu) progress' c' ∧
      progress'.cycles.toNat = progress.cycles.toNat + k ∧ c'.panel.cpu = cpu' ∧
      c.panel.attempts stretches.flatten = tried ∧ ∀ d ∈ stretches.flatten, d.isBatch = true := by
  -- what is counted and what is left always make up the budget
  induction h generalizing c progress with
  | halted left halt =>
    rw [← place] at halt
    exact ⟨_, _, _, .last (alone.went (.halted halt)), rfl, place, rfl, nofun⟩
  | spent awake =>
    rw [← place] at awake
    have full : limit ≤ progress.cycles := UInt64.le_iff_toNat_le.mpr (by omega)
    exact ⟨_, _, _, .last (alone.went (.spent awake (batchSize_of_spent _ full))), rfl, place, rfl,
      nofun⟩
  | @failed left cpu cpu' fault awake room batch =>
    obtain ⟨cycles, some, words⟩ := batchSize_of_left room sum
    rw [size] at words
    rw [← place] at awake batch
    rw [← words] at batch
    obtain ⟨q, failed, behind⟩ := Panel.runBatch_of_fault batch
    refine ⟨_, _, _, .last (alone.went (.failed awake some failed)), rfl, behind, ?_, ?_⟩
    · show c.panel.attempts [.batch cycles] = _
      rw [Panel.attempts_cons_error (d := .batch cycles) [] failed, place, ← words]
      rfl
    · show ∀ d ∈ [Deed.batch cycles], d.isBatch = true
      exact fun d inside => by rw [List.mem_singleton.mp inside]; rfl
  | @more left k j cpu cpu₁ cpu' result tried awake room batch rest ih =>
    obtain ⟨cycles, some, words⟩ := batchSize_of_left room sum
    rw [size] at words
    rw [← place] at awake batch
    rw [← words] at batch
    have bound := Cpu.run_le batch
    obtain ⟨report, q, done, count, behind, size', pause, stop⟩ := Panel.runBatch_of_run batch
    obtain ⟨added, left'⟩ := toNat_addReport observe q.frame count bound (by omega) sum
    have alone' : Alone ⟨q, c.channel⟩ :=
      ⟨⟨pause.trans alone.pause, alone.queue, alone.upcoming⟩, stop.trans alone.stop⟩
    obtain ⟨others, progress', c', course, total, last, later, batches⟩ :=
      ih alone' behind ((congrArg UInt32.toNat size').trans size) left'
    refine ⟨_, progress', c', .more (alone.went (.done awake some done)) course, by omega, last, ?_,
      ?_⟩
    · show c.panel.attempts (.batch cycles :: others.flatten) = _
      rw [Panel.attempts_cons_ok (d := .batch cycles) _ done, later, place, ← words]
      rfl
    · show ∀ d ∈ Deed.batch cycles :: others.flatten, d.isBatch = true
      intro d inside
      rcases List.mem_cons.mp inside with rfl | inside
      · rfl
      · exact batches d inside

/-- **Every run of a controller that is left alone is of this kind.** -/
theorem Course.batched
    (course : Course observe (some limit) progress c stretches result progress' c')
    (alone : c.Alone) {left : Nat} (sum : progress.cycles.toNat + left = limit.toNat) :
    ∃ ended k, Cpu.Batched c.panel.console.machine.batchLength.toNat left c.panel.cpu ended k
        c'.panel.cpu (c.panel.attempts stretches.flatten) ∧
      result = ended.mapError .cpu ∧ progress'.cycles.toNat = progress.cycles.toNat + k := by
  induction course generalizing left with
  | @last progress progress' c c' _ _ went =>
    obtain ⟨others, rfl, ran⟩ := alone.turned went
    cases ran with
    | halted halt => exact ⟨_, 0, .halted left halt, rfl, rfl⟩
    | spent awake size =>
      have none : left = 0 := by
        refine Nat.eq_zero_of_not_pos fun room => ?_
        obtain ⟨cycles, some, -⟩ := batchSize_of_left room sum
        cases size.symm.trans some
      subst none
      exact ⟨_, 0, .spent awake, rfl, rfl⟩
    | @failed cycles e p' awake size batch =>
      obtain ⟨room, words⟩ := left_of_batchSize size sum
      rcases run : c.panel.cpu.run cycles.toNat with ⟨(fault | k), cpu'⟩
      · obtain ⟨q, failed, rfl⟩ := Panel.runBatch_of_fault run
        cases batch.symm.trans failed
        have tried : c.panel.attempts [[], [.batch cycles]].flatten =
            c.panel.cpu.attempts cycles.toNat :=
          Panel.attempts_cons_error (d := .batch cycles) [] failed
        rw [tried, words]
        rw [words] at run
        exact ⟨_, 0, .failed awake room run, rfl, rfl⟩
      · obtain ⟨_, _, done, -⟩ := Panel.runBatch_of_run run
        cases batch.symm.trans done
  | @more progress next progress' c c₁ c' stretches others result went rest ih =>
    obtain ⟨tail, rfl, ran⟩ := alone.turned went
    cases ran with
    | @done cycles report p' awake size batch =>
      obtain ⟨room, words⟩ := left_of_batchSize size sum
      rcases run : c.panel.cpu.run cycles.toNat with ⟨(fault | k), cpu'⟩
      · obtain ⟨_, failed, -⟩ := Panel.runBatch_of_fault run
        cases batch.symm.trans failed
      · obtain ⟨_, _, done, count, behind, size', pause, stop⟩ := Panel.runBatch_of_run run
        cases batch.symm.trans done
        have bound := Cpu.run_le run
        obtain ⟨added, left'⟩ := toNat_addReport observe p'.frame count bound (by omega) sum
        have alone' : Alone ⟨p', c.channel⟩ :=
          ⟨⟨pause.trans alone.pause, alone.queue, alone.upcoming⟩, stop.trans alone.stop⟩
        obtain ⟨ended, j, later, rfl, total⟩ := ih alone' left'
        have tried : c.panel.attempts ([] :: [.batch cycles] :: others).flatten =
            c.panel.cpu.attempts cycles.toNat ++ p'.attempts others.flatten :=
          Panel.attempts_cons_ok (d := .batch cycles) _ done
        rw [List.cons_append, List.singleton_append, tried, words]
        rw [words] at run
        refine ⟨ended, k + j, .more awake room run ?_, rfl, by omega⟩
        rw [← size', ← behind]
        exact later

/-- How a run ended and behind how many cycles. -/
def tally (summary : RunReport) : RunEnd × Nat := (summary.reason, summary.cycles.toNat)

/-- **A run of a controller that is left alone ends with what its batches come to.** -/
theorem Alone.ends (alone : c.Alone) {ended : Except CpuFault RunEnd} {k : Nat} {cpu' : Cpu Bus}
    {tried : List (Cpu Bus)}
    (h : Cpu.Batched c.panel.console.machine.batchLength.toNat limit.toNat c.panel.cpu ended k cpu'
      tried) (observe : σ → Frame → σ) (start : σ) :
    ∃ result shown c', Ends observe start (some limit) c (result, shown, c') ∧
      result.map tally = (ended.mapError .cpu).map (fun reason => (reason, k)) ∧
      c'.panel.cpu = cpu' ∧
      ∃ stretches, Performs observe start (some limit) c stretches ∧
        c.panel.attempts stretches.flatten = tried ∧
        ∀ d ∈ stretches.flatten, d.isBatch = true := by
  have zero : (⟨0, 0, start⟩ : Progress σ).cycles.toNat + limit.toNat = limit.toNat :=
    Nat.zero_add _
  obtain ⟨stretches, progress', c', course, total, place, attempts, batches⟩ :=
    course_of_batched observe h alone rfl rfl zero
  have count : progress'.cycles.toNat = k := total.trans (Nat.zero_add k)
  have ends := course.ends
  have performs : Performs observe start (some limit) c stretches := ⟨_, _, _, course⟩
  cases ended with
  | error fault => exact ⟨_, _, _, ends, rfl, place, stretches, performs, attempts, batches⟩
  | ok reason =>
    refine ⟨_, _, _, ends, ?_, place, stretches, performs, attempts, batches⟩
    rw [← count]
    rfl

/-- The same the other way round: what it attempts are the attempts of batches. -/
theorem Alone.attempts (alone : c.Alone)
    (performs : Performs observe start (some limit) c stretches) :
    ∃ ended k cpu', Cpu.Batched c.panel.console.machine.batchLength.toNat limit.toNat c.panel.cpu
      ended k cpu' (c.panel.attempts stretches.flatten) := by
  obtain ⟨result, progress', c', course⟩ := performs
  obtain ⟨ended, k, batched, -⟩ := course.batched alone (Nat.zero_add _)
  exact ⟨ended, k, _, batched⟩

end Controller
end Retro24
