/-
  File:      Retro24/Proofs/Controller/Reasons.lean
  Subject:   The reason that a run gives for its end is true.

  * `Cpu.after`: the processor behind a number of cycles, when the draw flag is served behind every
    batch. `Cpu.Finishes`: how it finishes under a budget; `Finishes.unique`: in one way.
  * `Batched.finishes`: batches finish in that way. `Finishes.tells`: so a run is halted exactly if
    the processor is, behind no more cycles than the budget has.
  * `Justified`: what each reason says about the controller before and behind a run;
    `Turned.justified`, `Course.justified`.
  * `Session.stop_handled`: a stop that is pending was handled before.
  * `reason_truthful`: all of these together.
-/
import Retro24.Proofs.Controller.Budgets
import Retro24.Proofs.Controller.Order

namespace Retro24

/-! ## 1. Cycle by cycle -/

namespace Cpu

variable {length limit left n i j k k₀ : Nat} {c c' c₀ d e : Cpu Bus} {op : Opcode}
  {fault : CpuFault}

/-- The processor behind a number of cycles, if it does so many. The draw flag is served behind
    every so many of them. -/
def after (length : Nat) (c : Cpu Bus) : Nat → Option (Cpu Bus)
  | 0 => some c
  | k + 1 =>
    match c.after length k with
    | none => none
    | some d =>
      if d.halted then none
      else
        match d.fetch with
        | .error _ => none
        | .ok op => some (if length ∣ k + 1 then (d.perform op).served else d.perform op)

theorem after_succ (place : c.after length k = some d) (awake : d.halted = false)
    (fetch : d.fetch = .ok op) :
    c.after length (k + 1) =
      some (if length ∣ k + 1 then (d.perform op).served else d.perform op) := by
  simp only [after, place, awake, fetch, Bool.false_eq_true, if_false]

theorem exists_of_after_succ (place : c.after length (k + 1) = some e) :
    ∃ d op, c.after length k = some d ∧ d.halted = false ∧ d.fetch = .ok op := by
  rw [after] at place
  split at place
  · cases place
  · next d here =>
    rcases d.run_cases with halt | ⟨awake, fault, fetch⟩ | ⟨awake, op, fetch⟩
    · rw [if_pos halt] at place
      cases place
    · simp only [awake, fetch, Bool.false_eq_true, if_false] at place
      cases place
    · exact ⟨d, op, here, awake, fetch⟩

/-- In front of every cycle the processor is awake and finds an opcode. -/
theorem exists_of_after_lt (place : c.after length j = some e) (less : k < j) :
    ∃ d op, c.after length k = some d ∧ d.halted = false ∧ d.fetch = .ok op := by
  induction j generalizing e with
  | zero => exact absurd less (Nat.not_lt_zero k)
  | succ j ih =>
    obtain ⟨d, op, here, awake, fetch⟩ := exists_of_after_succ place
    rcases Nat.lt_succ_iff_lt_or_eq.mp less with less | rfl
    · exact ih here less
    · exact ⟨d, op, here, awake, fetch⟩

/-- How a processor finishes under a budget, cycle by cycle. -/
inductive Finishes (length limit : Nat) (c : Cpu Bus) : Except CpuFault (RunEnd × Nat) → Prop where
  | halted {k : Nat} {d : Cpu Bus} (inside : k ≤ limit) (place : c.after length k = some d)
      (halt : d.halted = true) : Finishes length limit c (.ok (.halted, k))
  | spent {d : Cpu Bus} (place : c.after length limit = some d) (awake : d.halted = false) :
      Finishes length limit c (.ok (.budgetExhausted, limit))
  | failed {k : Nat} {d : Cpu Bus} {fault : CpuFault} (inside : k < limit)
      (place : c.after length k = some d) (awake : d.halted = false)
      (fetch : d.fetch = .error fault) : Finishes length limit c (.error fault)

/-- A processor that does no further cycle, or has none left to do. -/
def Rests (limit k : Nat) (d : Cpu Bus) : Prop :=
  d.halted = true ∨ k = limit ∨ ∃ fault, d.fetch = .error fault

/-- A processor that rests does not get any further. -/
theorem Rests.not_lt (rests : Rests limit j d) (place : c.after length j = some d)
    (later : c.after length k = some e) (inside : k ≤ limit) : ¬ j < k := by
  intro less
  obtain ⟨d', op, here, awake, fetch⟩ := exists_of_after_lt later less
  cases place.symm.trans here
  rcases rests with halt | full | ⟨fault, failed⟩
  · cases halt.symm.trans awake
  · omega
  · cases failed.symm.trans fetch

/-- What is to be said about a processor that rests. -/
def verdict (k : Nat) (d : Cpu Bus) (limit : Nat) : Except CpuFault (RunEnd × Nat) :=
  if d.halted then .ok (.halted, k)
  else if k = limit then .ok (.budgetExhausted, k)
  else d.fetch.map fun _ => (.budgetExhausted, k)

theorem Finishes.exists_rests {v : Except CpuFault (RunEnd × Nat)}
    (h : Finishes length limit c v) :
    ∃ k d, k ≤ limit ∧ c.after length k = some d ∧ Rests limit k d ∧ v = verdict k d limit := by
  cases h with
  | @halted k d inside place halt =>
    refine ⟨k, d, inside, place, .inl halt, ?_⟩
    rw [verdict, if_pos halt]
  | @spent d place awake =>
    refine ⟨limit, d, Nat.le_refl limit, place, .inr (.inl rfl), ?_⟩
    simp only [verdict, awake, Bool.false_eq_true, if_false, if_true]
  | @failed k d fault inside place awake fetch =>
    refine ⟨k, d, Nat.le_of_lt inside, place, .inr (.inr ⟨fault, fetch⟩), ?_⟩
    simp only [verdict, awake, Bool.false_eq_true, if_false, if_neg (Nat.ne_of_lt inside), fetch]
    rfl

/-- **A processor finishes in one way.** -/
theorem Finishes.unique {v v' : Except CpuFault (RunEnd × Nat)} (h : Finishes length limit c v)
    (h' : Finishes length limit c v') : v = v' := by
  obtain ⟨k, d, inside, place, rests, rfl⟩ := h.exists_rests
  obtain ⟨k', d', inside', place', rests', rfl⟩ := h'.exists_rests
  have forward := rests.not_lt place place' inside'
  have backward := rests'.not_lt place' place inside
  have same : k = k' := by omega
  subst same
  cases place.symm.trans place'
  rfl

/-! ## 2. Batch by batch -/

/-- Within a batch the draw flag is served at its end only. -/
theorem dvd_place (whole : length ∣ k₀) (inside : i + 1 ≤ length) :
    length ∣ k₀ + i + 1 ↔ i + 1 = length := by
  rw [Nat.add_assoc, Nat.dvd_add_right whole]
  constructor
  · exact fun d => Nat.le_antisymm inside (Nat.le_of_dvd (Nat.succ_pos i) d)
  · intro full
    subst full
    exact Nat.dvd_refl (i + 1)

/-- A cycle in front of the last one of a batch leaves the draw flag alone. -/
theorem after_inside (place : c₀.after length (k₀ + i) = some c) (whole : length ∣ k₀)
    (inside : i + 1 < length) (awake : c.halted = false) (fetch : c.fetch = .ok op) :
    c₀.after length (k₀ + (i + 1)) = some (c.perform op) := by
  have first := after_succ place awake fetch
  have short : ¬ length ∣ k₀ + i + 1 := by
    intro full
    have last := (dvd_place whole (Nat.le_of_lt inside)).mp full
    omega
  rw [if_neg short] at first
  exact first

/-- A run inside a batch, cycle by cycle. -/
theorem after_of_run (place : c₀.after length (k₀ + i) = some c) (whole : length ∣ k₀)
    (inside : i + n ≤ length) (run : c.run n = (.ok k, c')) (some : 0 < k) :
    c₀.after length (k₀ + i + k) = .some (if i + k = length then c'.served else c') := by
  induction n generalizing c i k with
  | zero =>
    cases run
    exact absurd some (Nat.lt_irrefl 0)
  | succ n ih =>
    rcases c.run_cases with halt | ⟨awake, fault, fetch⟩ | ⟨awake, op, fetch⟩
    · rw [run_of_halted halt] at run
      cases run
      exact absurd some (Nat.lt_irrefl 0)
    · rw [run_of_fault awake fetch] at run
      cases run
    · obtain ⟨j, rest, rfl⟩ := exists_of_run_succ awake fetch run
      rcases Nat.eq_zero_or_pos j with rfl | more
      -- the last cycle of the run may be the last one of the batch
      · have last := after_succ place awake fetch
        simp only [dvd_place whole (show i + 1 ≤ length by omega)] at last
        rw [eq_of_run_zero rest]
        exact last
      · have bound := run_le rest
        have first := after_inside place whole (by omega) awake fetch
        have behind := ih (i := i + 1) first (by omega) rest more
        have sum : k₀ + i + (1 + j) = k₀ + (i + 1) + j := by omega
        have sum' : i + (1 + j) = i + 1 + j := by omega
        rw [sum, sum']
        exact behind

/-- A fault inside a batch, cycle by cycle. -/
theorem fault_of_run (place : c₀.after length (k₀ + i) = some c) (whole : length ∣ k₀)
    (inside : i + n ≤ length) (run : c.run n = (.error fault, c')) :
    ∃ j d, j < n ∧ c₀.after length (k₀ + i + j) = some d ∧ d.halted = false ∧
      d.fetch = .error fault := by
  induction n generalizing c i with
  | zero => cases run
  | succ n ih =>
    rcases c.run_cases with halt | ⟨awake, fault, fetch⟩ | ⟨awake, op, fetch⟩
    · rw [run_of_halted halt] at run
      cases run
    · rw [run_of_fault awake fetch] at run
      cases run
      exact ⟨0, _, Nat.succ_pos n, place, awake, fetch⟩
    · have rest := run_of_run_succ_error awake fetch run
      have more : n ≠ 0 := by
        intro zero
        subst zero
        cases rest
      have first := after_inside place whole (by omega) awake fetch
      obtain ⟨j, d, less, later, awake', fetch'⟩ := ih (i := i + 1) first (by omega) rest
      refine ⟨1 + j, d, by omega, ?_, awake', fetch'⟩
      have sum : k₀ + i + (1 + j) = k₀ + (i + 1) + j := by omega
      rw [sum]
      exact later

/-- **Batches finish as the processor does cycle by cycle.** The processor `d` is the one behind so
    many cycles; it is the one in front of the next batch, if there is one. -/
theorem Batched.finishes {result : Except CpuFault RunEnd} {tried : List (Cpu Bus)}
    (h : Batched length left c result k c' tried) (filled : 0 < length)
    (place : c₀.after length k₀ = some d) (halt : d.halted = c.halted)
    (going : 0 < left → c.halted = false → d = c ∧ length ∣ k₀) :
    Finishes length (k₀ + left) c₀ (result.map fun reason => (reason, k₀ + k)) := by
  induction h generalizing k₀ d with
  | halted left here => exact .halted (Nat.le_add_right k₀ left) place (halt.trans here)
  | spent awake => exact .spent place (halt.trans awake)
  | @failed left c c' fault awake room batch =>
    obtain ⟨rfl, whole⟩ := going room awake
    obtain ⟨j, e, less, later, awake', fetch⟩ :=
      fault_of_run (i := 0) place whole (by omega) batch
    exact .failed (by omega) later awake' fetch
  | @more left k j c c₁ c' result tried awake room batch rest ih =>
    obtain ⟨rfl, whole⟩ := going room awake
    have some : 0 < k := run_filled awake (Nat.lt_min.mpr ⟨filled, room⟩) batch
    have bound := run_le batch
    have behind := after_of_run (i := 0) place whole (by omega) batch some
    rw [Nat.zero_add, Nat.add_zero] at behind
    have sum : k₀ + k + (left - k) = k₀ + left := by omega
    have sum' : k₀ + (k + j) = k₀ + k + j := (Nat.add_assoc k₀ k j).symm
    rw [← sum, sum']
    refine ih behind ?_ fun more awake' => ?_
    · split
      · rfl
      · exact (halted_served c₁).symm
    · -- a batch that goes on behind this one has not been cut short
      have full : ¬ k < min length left := by
        intro short
        rw [halted_served, run_short batch short] at awake'
        cases awake'
      have size : k = length := by omega
      rw [if_pos size, size]
      exact ⟨rfl, Nat.dvd_add whole (Nat.dvd_refl length)⟩

/-- What an answer says about a processor: it is halted exactly if the processor is, behind no more
    cycles than the budget has, and otherwise the budget is exhausted or a fault is reported. -/
structure Tells (length limit : Nat) (c : Cpu Bus) (answer : Except MachineError (RunEnd × Nat)) :
    Prop where
  halted (k : Nat) : answer = .ok (.halted, k) ↔
    k ≤ limit ∧ ∃ d, c.after length k = some d ∧ d.halted = true
  exhausted (k : Nat) : answer = .ok (.budgetExhausted, k) ↔
    k = limit ∧ ∃ d, c.after length k = some d ∧ d.halted = false
  failed (e : MachineError) : answer = .error e ↔
    ∃ fault k d, e = .cpu fault ∧ k < limit ∧ c.after length k = some d ∧ d.halted = false ∧
      d.fetch = .error fault
  stopped (k : Nat) : answer ≠ .ok (.stopped, k)

theorem Finishes.tells {v : Except CpuFault (RunEnd × Nat)} (h : Finishes length limit c v) :
    Tells length limit c (v.mapError .cpu) where
  halted k := by
    constructor
    · intro answer
      cases h with
      | halted inside place halt =>
        cases answer
        exact ⟨inside, _, place, halt⟩
      | spent _ _ => cases answer
      | failed _ _ _ _ => cases answer
    · intro truth
      obtain ⟨inside, d, place, halt⟩ := truth
      rw [h.unique (.halted inside place halt)]
      rfl
  exhausted k := by
    constructor
    · intro answer
      cases h with
      | halted _ _ _ => cases answer
      | spent place awake =>
        cases answer
        exact ⟨rfl, _, place, awake⟩
      | failed _ _ _ _ => cases answer
    · intro truth
      obtain ⟨rfl, d, place, awake⟩ := truth
      rw [h.unique (.spent place awake)]
      rfl
  failed e := by
    constructor
    · intro answer
      cases h with
      | halted _ _ _ => cases answer
      | spent _ _ => cases answer
      | failed inside place awake fetch =>
        cases answer
        exact ⟨_, _, _, rfl, inside, place, awake, fetch⟩
    · intro truth
      obtain ⟨fault, k, d, rfl, inside, place, awake, fetch⟩ := truth
      rw [h.unique (.failed inside place awake fetch)]
      rfl
  stopped k := by
    intro answer
    cases h <;> cases answer

end Cpu

namespace Controller

variable {σ : Type} {observe : σ → Frame → σ} {start : σ} {budget : Option UInt64}
  {progress progress' : Progress σ} {c c' : Controller} {reason : RunEnd}
  {stretches : List (List Deed)} {p : Panel} {ch : Channel}

/-! ## 3. Every run -/

/-- What a reason says about a run: about the controller in front of it and behind it, about the
    deeds and about the cycles that are counted. -/
def Justified (budget : Option UInt64) (c : Controller) (stretches : List (List Deed))
    (cycles : UInt64) (c' : Controller) : RunEnd → Prop
  | .halted => c'.panel.console.machine.halted = true ∧ c'.panel.paused = false
  | .budgetExhausted => (∃ limit, budget = some limit ∧ limit ≤ cycles) ∧
      c'.panel.console.machine.halted = false ∧ c'.panel.paused = false
  | .stopped => c.panel.stopPending = true ∨ .command .stop ∈ stretches.flatten ∨
      (c'.panel.paused = true ∧ c'.channel.queue = [] ∧ c'.channel.handles = 0)

theorem closed_of_waitFor {handles : Nat} {upcoming : List Arrival} {ch' : Channel}
    (waited : Channel.waitFor handles upcoming = (.closed, ch')) :
    ch'.queue = [] ∧ ch'.handles = 0 := by
  induction upcoming using Channel.firstComing.induct with
  | case1 =>
    by_cases none : handles = 0
    · rw [Channel.waitFor, if_pos none] at waited
      cases waited
      exact ⟨rfl, none⟩
    · rw [Channel.waitFor, if_neg none] at waited
      cases waited
  | case2 rest ih => exact ih waited
  | case3 c queue rest => cases waited
  | case4 c rest => cases waited

/-- A channel is closed once its queue is empty and nobody holds a handle. -/
theorem closed_of_wait {ch' : Channel} (waited : ch.wait = (.closed, ch')) :
    ch'.queue = [] ∧ ch'.handles = 0 := by
  simp only [Channel.wait] at waited
  split at waited
  · exact closed_of_waitFor waited
  · cases waited

/-- There is no batch only where a budget is spent. -/
theorem spent_of_batchSize {batchLength : UInt32} {spent : UInt64}
    (size : batchSize batchLength budget spent = none) :
    ∃ limit, budget = some limit ∧ limit ≤ spent := by
  cases budget with
  | none => cases size
  | some limit =>
    refine ⟨limit, rfl, UInt64.not_lt.mp fun below => ?_⟩
    have less := UInt64.lt_iff_toNat_lt.mp below
    have left : ∃ cycles, batchSize batchLength (some limit) spent = some cycles ∧
        cycles.toNat = min batchLength.toNat (limit.toNat - spent.toNat) :=
      batchSize_of_left (by omega) (by omega)
    obtain ⟨cycles, room, -⟩ := left
    cases size.symm.trans room

/-- **A turn that ends a run gives a true reason.** -/
theorem Turned.justified
    (went : Turned observe budget progress c stretches (.over (.ok reason) progress' c')) :
    Justified budget c stretches progress'.cycles c' reason := by
  cases went with
  | @stopped commands report p ch polled stop =>
    have latch := Panel.stopPending_actAll polled.handled
    rw [stop] at latch
    rcases Bool.or_eq_true_iff.mp latch.symm with before | inside
    · exact .inl before
    · refine .inr (.inl ?_)
      rw [List.flatten_singleton]
      exact of_decide_eq_true inside
  | waited polled _ pause rest =>
    cases rest with
    | closed waited =>
      obtain ⟨empty, none⟩ := closed_of_wait waited
      exact .inr (.inr ⟨pause, empty, none⟩)
  | ran polled _ pause rest =>
    cases rest with
    | halted halt => exact ⟨halt, pause⟩
    | spent awake size => exact ⟨spent_of_batchSize size, awake, pause⟩

/-- **So does a run.** -/
theorem Course.justified
    (course : Course observe budget progress c stretches (.ok reason) progress' c') :
    Justified budget c stretches progress'.cycles c' reason := by
  generalize ended : (.ok reason : Except MachineError RunEnd) = result at course
  induction course with
  | last went =>
    cases ended
    exact went.justified
  | @more progress next progress' c c₁ c' stretches others result went _ ih =>
    have later := ih ended
    cases reason with
    | halted => exact later
    | budgetExhausted => exact later
    | stopped =>
      obtain ⟨reports, done, -⟩ := went.does_next
      obtain ⟨report, flat⟩ := done.actAll_flatten
      have latch := Panel.stopPending_actAll flat
      -- a stop that was pending behind the first turn was so before, or comes from it
      show _ ∨ _ ∨ _
      rw [List.flatten_append, List.mem_append]
      rcases later with pending | inside | closed
      · rw [pending] at latch
        rcases Bool.or_eq_true_iff.mp latch.symm with before | first
        · exact .inl before
        · exact .inr (.inl (.inl (of_decide_eq_true first)))
      · exact .inr (.inl (.inr inside))
      · exact .inr (.inr closed)

/-! ## 4. Stops that were handled earlier -/

/-- A stop that is pending was so before, or was handled since. -/
theorem Passes.stop_handled {came : List Command} {ds : List Deed} (h : c.Passes came ds c')
    (pending : c'.panel.stopPending = true) :
    c.panel.stopPending = true ∨ .stop ∈ Deed.commands ds := by
  have command : ∀ {p : Panel} {x : Command} {ds : List Deed},
      ((p.handle x).2.stopPending = true ∨ .stop ∈ Deed.commands ds) →
        p.stopPending = true ∨ .stop ∈ Deed.commands (.command x :: ds) := by
    intro p x ds behind
    have latch := p.stopPending_act (.command x)
    rcases behind with behind | inside
    · rcases Bool.or_eq_true_iff.mp (latch.symm.trans behind) with before | here
      · exact .inl before
      · cases of_decide_eq_true here
        exact .inr List.mem_cons_self
    · exact .inr (List.mem_cons_of_mem x inside)
  induction h with
  | here c => exact .inl pending
  | idle _ _ ih => exact ih pending
  | polled _ _ ih => exact command (ih pending)
  | closed _ _ ih => exact ih pending
  | received _ _ ih => exact command (ih pending)
  | @ran p _ _ _ _ cycles _ ih =>
    have latch := ih pending
    rw [Panel.runBatch_eq] at latch
    exact latch
  | released _ ih =>
    rcases ih pending with before | inside
    · cases before
    · exact .inr inside
  | noted _ _ ih => exact ih pending

/-- **A stop that is pending at some moment of a session was handled before it.** -/
theorem Session.stop_handled {accepted handled : List Command} (h : Session accepted handled c)
    (pending : c.panel.stopPending = true) : .stop ∈ handled := by
  induction h with
  | start console => cases pending
  | aside _ _ _ _ _ ih => exact ih pending
  | send _ _ ih => exact ih pending
  | pass _ passes ih =>
    rcases passes.stop_handled pending with before | inside
    · exact List.mem_append_left _ (ih before)
    · exact List.mem_append_right _ inside

/-! ## 5. True reasons -/

/-- **The reason that a run gives is true**, whatever comes into its queue. A stop that was pending
    when it began had been handled before. And if nobody disturbs a run under a budget, then the run
    is halted exactly if the processor is behind no more cycles than the budget has, and otherwise
    the budget is exhausted or a fault is reported. -/
theorem reason_truthful (observe : σ → Frame → σ) (start : σ) (budget : Option UInt64)
    (c : Controller) :
    (∀ summary shown c', Ends observe start budget c (.ok summary, shown, c') →
      ∃ stretches, Performs observe start budget c stretches ∧
        Justified budget c stretches summary.cycles c' summary.reason) ∧
    (∀ accepted handled, Session accepted handled c → c.panel.stopPending = true →
      .stop ∈ handled) ∧
    ∀ limit, budget = some limit → c.Alone → 1 ≤ c.panel.console.machine.batchLength →
      ∃ result shown c', Ends observe start budget c (result, shown, c') ∧
        Cpu.Tells c.panel.console.machine.batchLength.toNat limit.toNat c.panel.cpu
          (result.map tally) := by
  refine ⟨fun summary shown c' ends => ?_, fun accepted handled h => h.stop_handled, ?_⟩
  · obtain ⟨stretches, result, progress', d, course, concluded⟩ := ends_iff.mp ends
    refine ⟨stretches, ⟨_, _, _, course⟩, ?_⟩
    cases result with
    | error e => cases concluded
    | ok reason =>
      cases concluded
      have truth := course.justified
      cases reason <;> exact truth
  · intro limit same alone filled
    subst same
    have filled' : 0 < c.panel.console.machine.batchLength.toNat :=
      UInt32.le_iff_toNat_le.mp filled
    obtain ⟨ended, k, cpu', tried, batched⟩ :=
      Cpu.exists_batched filled' limit.toNat c.panel.cpu
    obtain ⟨result, shown, c', ends, answer, -⟩ := alone.ends batched observe start
    have begun : c.panel.cpu.after c.panel.console.machine.batchLength.toNat 0 =
        some c.panel.cpu := rfl
    have finishes := batched.finishes filled' begun rfl fun _ _ => ⟨rfl, Nat.dvd_zero _⟩
    rw [Nat.zero_add, Nat.zero_add] at finishes
    refine ⟨result, shown, c', ends, ?_⟩
    rw [answer]
    cases ended with
    | error fault => exact finishes.tells
    | ok reason => exact finishes.tells

/-- A machine as power comes on halts with the very cycle that its budget has. -/
theorem reason_truthful_powerOn :
    ∃ (c c' : Controller) (frames : UInt64) (shown : Nat),
      c.panel.console.machine = .powerOn ∧ c.Alone ∧
      1 ≤ c.panel.console.machine.batchLength ∧
      Ends (fun n _ => n + 1) 0 (some 1) c (.ok ⟨1, frames, .halted⟩, shown, c') ∧
      c'.panel.console.machine.halted = true ∧ c'.panel.paused = false := by
  have alone : (start (.powerOn none)).Alone := ⟨⟨rfl, rfl, rfl⟩, rfl⟩
  have filled : 1 ≤ Machine.powerOn.batchLength := by decide +kernel
  obtain ⟨justified, -, undisturbed⟩ :=
    reason_truthful (fun n _ => n + 1) 0 (some 1) (start (.powerOn none))
  obtain ⟨result, shown, c', ends, tells⟩ := undisturbed 1 rfl alone filled
  have byte : Memory.read Machine.powerOn.cpu.memory startAddress = 0xFF := by decide +kernel
  have fetch : Machine.powerOn.cpu.fetch = .ok .hlt := by
    have place : Machine.powerOn.cpu.regs.ic = startAddress := rfl
    simp only [Cpu.fetch, place, byte]
    rfl
  have first : Machine.powerOn.cpu.after Machine.powerOn.batchLength.toNat 1 = some _ :=
    Cpu.after_succ rfl rfl fetch
  have halted : result.map tally = .ok (.halted, 1) := by
    refine (tells.halted 1).mpr ⟨Nat.le_refl 1, _, first, ?_⟩
    split
    · exact Cpu.halted_served _
    · rfl
  rcases result with e | ⟨cycles, frames, reason⟩
  · cases halted
  · obtain ⟨rfl, one⟩ := Prod.mk.inj (Except.ok.inj halted)
    have word : cycles = 1 := UInt64.toNat_inj.mp one
    subst word
    obtain ⟨stretches, -, halt, pause⟩ := justified _ _ _ ends
    exact ⟨_, c', frames, shown, rfl, alone, filled, ends, halt, pause⟩

end Controller
end Retro24
