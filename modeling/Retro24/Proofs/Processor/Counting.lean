/-
  File:      Retro24/Proofs/Processor/Counting.lean
  Subject:   The word R2:R1 counted up and down, again and again.

  * `Registers.word`: the number in R2 and R1; `Sheet.word_add`, `Sheet.r1_increment`,
    `Sheet.r2_increment`, `Sheet.subtract_cases`: what one instruction of the table makes of it.
  * `Sheet.strokes`: how often DRW has to be done until the word is zero (`strokes_subtract_one`).
  * `Cpu.performTimes`: one opcode performed again and again. `word_adds`, `r1_increments`,
    `r2_increments`, `strokes_decrements`: the closed forms, by induction on the number of times.
  * `RunsDown`: numbers that fall until they are zero; they are so soon (`RunsDown.reaches`).
  * `Cpu.Counting`: the cycles of a loop that counts the word down, whatever else it does
    (`Counting.taken_or_zero`).
  * `word_counted`: all of it together.
-/
import Retro24.Proofs.Processor.History

namespace Retro24

/-- The number in R2 and R1. -/
def Registers.word (r : Registers) : Nat := 256 * r.r2.toNat + r.r1.toNat

theorem Registers.word_le (r : Registers) : r.word ≤ 65535 := by
  have low := r.r1.toNat_lt
  have high := r.r2.toNat_lt
  unfold word
  omega

/-! ## 1. One instruction -/

namespace Sheet

variable {s : Sheet} {amount : Nat}

/-- The number in R2 and R1. -/
def word (s : Sheet) : Nat := 256 * s.r2 + s.r1

/-- How often one has to be taken from the word until it is zero: as often as R1 says, and twice for
    each one in R2, since what a borrow leaves in R1 is one and not $FF. -/
def strokes (s : Sheet) : Nat := s.r1 + 2 * s.r2

theorem strokes_eq_zero_iff : s.strokes = 0 ↔ s.word = 0 := by
  unfold strokes word
  omega

/-- **R0 is added exactly**, and the word is held where the sum would not fit. -/
theorem word_add (byte0 : s.r0 < 256) (byte1 : s.r1 < 256) (byte2 : s.r2 < 256) :
    s.add.word = min (s.word + s.r0) 65535 := by
  unfold add word
  dsimp only
  split
  · split <;> dsimp only <;> omega
  · dsimp only
    omega

theorem r0_add (s : Sheet) : s.add.r0 = s.r0 := by
  simp only [add, apply_ite Sheet.r0, ite_self]

theorem r1_increment (byte1 : s.r1 < 256) : s.increment.r1 = min (s.r1 + 1) 255 := by
  unfold increment
  dsimp only
  split <;> dsimp only <;> omega

theorem r2_increment (s : Sheet) :
    s.increment.r2 = if s.r1 + 1 > 255 then min (s.r2 + 1) 255 else s.r2 := by
  unfold increment
  dsimp only
  split <;> rfl

/-- **The three ways of taking an amount**: R1 holds it, R2 gives one for it, or R2 has none. -/
theorem subtract_cases (s : Sheet) (amount : Nat) :
    (amount ≤ s.r1 ∧ s.subtract amount = { s with r1 := s.r1 - amount }) ∨
    (s.r1 < amount ∧ 0 < s.r2 ∧
      s.subtract amount = { s with r1 := amount - s.r1, r2 := s.r2 - 1 }) ∨
    (s.r1 < amount ∧ s.r2 = 0 ∧ s.subtract amount = { s with r1 := 0, r2 := 0 }) := by
  unfold subtract
  by_cases held : amount ≤ s.r1
  · have difference : ((s.r1 : Int) - amount).toNat = s.r1 - amount := by omega
    rw [if_neg (by omega), difference]
    exact .inl ⟨held, rfl⟩
  · have magnitude : ((s.r1 : Int) - amount).natAbs = amount - s.r1 := by omega
    rw [if_pos (by omega), magnitude]
    by_cases empty : s.r2 = 0
    · rw [if_pos (by omega)]
      exact .inr (.inr ⟨Nat.not_le.mp held, empty, rfl⟩)
    · rw [if_neg (by omega)]
      exact .inr (.inl ⟨Nat.not_le.mp held, Nat.pos_of_ne_zero empty, rfl⟩)

theorem r0_subtract (s : Sheet) (amount : Nat) : (s.subtract amount).r0 = s.r0 := by
  rcases s.subtract_cases amount with ⟨-, done⟩ | ⟨-, -, done⟩ | ⟨-, -, done⟩ <;> rw [done]

/-- **What is taken from a word that is not zero makes it smaller.** A borrow takes 256 and leaves
    less than that in R1. -/
theorem word_subtract_lt (some : 0 < amount) (byte : amount < 256) (left : s.word ≠ 0) :
    (s.subtract amount).word < s.word := by
  unfold word at *
  rcases s.subtract_cases amount with ⟨_, done⟩ | ⟨_, borrow, done⟩ | ⟨_, empty, done⟩ <;>
    rw [done] <;> dsimp only <;> omega

theorem word_subtract_zero (zero : s.word = 0) : (s.subtract amount).word = 0 := by
  unfold word at *
  rcases s.subtract_cases amount with ⟨_, done⟩ | ⟨_, borrow, done⟩ | ⟨_, empty, done⟩ <;>
    rw [done] <;> dsimp only <;> omega

/-- **One taken from the word is one stroke**, be it from R1 or with a borrow. -/
theorem strokes_subtract_one (s : Sheet) : (s.subtract 1).strokes = s.strokes - 1 := by
  unfold strokes
  rcases s.subtract_cases 1 with ⟨_, done⟩ | ⟨_, borrow, done⟩ | ⟨_, empty, done⟩ <;>
    rw [done] <;> dsimp only <;> omega

end Sheet

/-- Whether an opcode counts the word down. -/
def Opcode.countsDown (op : Opcode) : Bool := op == .s01 || op == .drw

theorem Opcode.countsDown_iff {op : Opcode} : op.countsDown = true ↔ op = .s01 ∨ op = .drw := by
  rw [countsDown, Bool.or_eq_true, beq_iff_eq, beq_iff_eq]

/-! ## 2. Numbers that run down -/

/-- Numbers that fall until they are zero, and then stay zero. -/
structure RunsDown (f : Nat → Nat) : Prop where
  falls (n : Nat) : f n ≠ 0 → f (n + 1) < f n
  rests (n : Nat) : f n = 0 → f (n + 1) = 0

/-- **They reach zero**, at the latest behind as many as they start with. -/
theorem RunsDown.reaches {f : Nat → Nat} (down : RunsDown f) {n : Nat} (long : f 0 ≤ n) :
    f n = 0 := by
  have taken (k : Nat) : f k + k ≤ f 0 ∨ f k = 0 := by
    induction k with
    | zero => exact .inl (Nat.le_refl _)
    | succ k ih =>
      by_cases zero : f k = 0
      · exact .inr (down.rests k zero)
      · have less := down.falls k zero
        omega
  have last := taken n
  omega

namespace Cpu

variable {M : Type} [Memory M] {c c' : Cpu M} {op : Opcode} {ops : List Opcode}

/-! ## 3. One opcode again and again -/

/-- An opcode performed a number of times, one cycle each. -/
def performTimes (c : Cpu M) (op : Opcode) : Nat → Cpu M
  | 0 => c
  | n + 1 => (c.performTimes op n).perform op

/-- What an instruction finds when it is done: the watchdogs have moved and the opcode is noted. -/
def ticked (c : Cpu M) (op : Opcode) : Sheet :=
  { c.sheet.tick with opcode := (row op).code }

variable [LawfulMemory M]

theorem word_perform_a01 (c : Cpu M) :
    (c.perform .a01).regs.word = min (c.regs.word + c.regs.r0.toNat) 65535 := by
  show (c.perform .a01).sheet.word = _
  rw [sheet_perform]
  exact Sheet.word_add (s := c.ticked .a01) c.regs.r0.toNat_lt c.regs.r1.toNat_lt c.regs.r2.toNat_lt

theorem r0_perform_a01 (c : Cpu M) : (c.perform .a01).regs.r0.toNat = c.regs.r0.toNat := by
  show (c.perform .a01).sheet.r0 = _
  rw [sheet_perform]
  exact (c.ticked .a01).r0_add

theorem r1_perform_irw (c : Cpu M) :
    (c.perform .irw).regs.r1.toNat = min (c.regs.r1.toNat + 1) 255 := by
  show (c.perform .irw).sheet.r1 = _
  rw [sheet_perform]
  exact Sheet.r1_increment (s := c.ticked .irw) c.regs.r1.toNat_lt

theorem r2_perform_irw (c : Cpu M) :
    (c.perform .irw).regs.r2.toNat =
      if c.regs.r1.toNat + 1 > 255 then min (c.regs.r2.toNat + 1) 255 else c.regs.r2.toNat := by
  show (c.perform .irw).sheet.r2 = _
  rw [sheet_perform]
  exact (c.ticked .irw).r2_increment

/-- An instruction that counts down takes something from a word that is not zero. -/
theorem word_perform_lt (counts : op.countsDown = true) (some : op = .s01 → c.regs.r0 ≠ 0)
    (left : c.regs.word ≠ 0) : (c.perform op).regs.word < c.regs.word := by
  show (c.perform op).sheet.word < (c.ticked op).word
  rw [sheet_perform]
  rcases Opcode.countsDown_iff.mp counts with rfl | rfl
  · have amount : c.regs.r0.toNat ≠ 0 := fun zero => some rfl (UInt8.toNat.inj zero)
    exact Sheet.word_subtract_lt (s := c.ticked .s01) (Nat.pos_of_ne_zero amount)
      c.regs.r0.toNat_lt left
  · exact Sheet.word_subtract_lt (s := c.ticked .drw) Nat.one_pos (by decide) left

theorem word_perform_zero (counts : op.countsDown = true) (zero : c.regs.word = 0) :
    (c.perform op).regs.word = 0 := by
  show (c.perform op).sheet.word = 0
  rw [sheet_perform]
  rcases Opcode.countsDown_iff.mp counts with rfl | rfl
  · exact Sheet.word_subtract_zero (s := c.ticked .s01) zero
  · exact Sheet.word_subtract_zero (s := c.ticked .drw) zero

theorem r0_perform_s01 (c : Cpu M) : (c.perform .s01).regs.r0 = c.regs.r0 := by
  apply UInt8.toNat.inj
  show (c.perform .s01).sheet.r0 = _
  rw [sheet_perform]
  exact (c.ticked .s01).r0_subtract _

theorem strokes_perform_drw (c : Cpu M) :
    (c.perform .drw).sheet.strokes = c.sheet.strokes - 1 := by
  rw [sheet_perform]
  exact (c.ticked .drw).strokes_subtract_one

theorem r0_adds (c : Cpu M) (n : Nat) :
    (c.performTimes .a01 n).regs.r0.toNat = c.regs.r0.toNat := by
  induction n with
  | zero => rfl
  | succ n ih => exact (r0_perform_a01 _).trans ih

/-- **A01 adds R0 as often as it is performed**, and holds the word at its largest value. -/
theorem word_adds (c : Cpu M) (n : Nat) :
    (c.performTimes .a01 n).regs.word = min (c.regs.word + n * c.regs.r0.toNat) 65535 := by
  induction n with
  | zero =>
    rw [Nat.zero_mul, Nat.add_zero, Nat.min_eq_left c.regs.word_le]
    rfl
  | succ n ih =>
    rw [performTimes, word_perform_a01, ih, r0_adds, Nat.succ_mul]
    omega

/-- **IRW counts R1 up to its largest value.** -/
theorem r1_increments (c : Cpu M) (n : Nat) :
    (c.performTimes .irw n).regs.r1.toNat = min (c.regs.r1.toNat + n) 255 := by
  have byte := c.regs.r1.toNat_lt
  induction n with
  | zero =>
    show c.regs.r1.toNat = _
    omega
  | succ n ih =>
    rw [performTimes, r1_perform_irw, ih]
    omega

/-- **What R1 does not take, R2 does**, up to its largest value. -/
theorem r2_increments (c : Cpu M) (n : Nat) :
    (c.performTimes .irw n).regs.r2.toNat =
      min (c.regs.r2.toNat + (n - (255 - c.regs.r1.toNat))) 255 := by
  have low := c.regs.r1.toNat_lt
  have high := c.regs.r2.toNat_lt
  induction n with
  | zero =>
    show c.regs.r2.toNat = _
    omega
  | succ n ih =>
    rw [performTimes, r2_perform_irw, r1_increments, ih]
    split <;> omega

/-- **DRW takes one stroke each time.** -/
theorem strokes_decrements (c : Cpu M) (n : Nat) :
    (c.performTimes .drw n).sheet.strokes = c.sheet.strokes - n := by
  induction n with
  | zero => rfl
  | succ n ih =>
    rw [performTimes, strokes_perform_drw, ih]
    omega

theorem runsDown_drw (c : Cpu M) : RunsDown fun n => (c.performTimes .drw n).regs.word where
  falls _ := word_perform_lt rfl nofun
  rests _ := word_perform_zero rfl

theorem r0_subtracts (c : Cpu M) (n : Nat) : (c.performTimes .s01 n).regs.r0 = c.regs.r0 := by
  induction n with
  | zero => rfl
  | succ n ih => exact (r0_perform_s01 _).trans ih

theorem runsDown_s01 (some : c.regs.r0 ≠ 0) :
    RunsDown fun n => (c.performTimes .s01 n).regs.word where
  falls n := word_perform_lt rfl fun _ => by rwa [r0_subtracts]
  rests _ := word_perform_zero rfl

/-! ## 4. Loops -/

/-- Cycles of a loop that counts the word down, from one processor to another: none of them fails,
    what S01 takes is never nothing, and the other instructions do not raise the word. -/
inductive Counting : Cpu M → List Opcode → Cpu M → Prop where
  | ended (c : Cpu M) : Counting c [] c
  | down {c c' : Cpu M} {op : Opcode} {ops : List Opcode} (fetch : c.fetch = .ok op)
      (counts : op.countsDown = true) (some : op = .s01 → c.regs.r0 ≠ 0)
      (rest : Counting (c.perform op) ops c') : Counting c (op :: ops) c'
  | aside {c c' : Cpu M} {op : Opcode} {ops : List Opcode} (fetch : c.fetch = .ok op)
      (counts : op.countsDown = false) (kept : (c.perform op).regs.word ≤ c.regs.word)
      (rest : Counting (c.perform op) ops c') : Counting c (op :: ops) c'

omit [LawfulMemory M] in
/-- They are cycles in a row. -/
theorem Counting.clocks (h : Counting c ops c') : c.clocks ops.length = (ops.map .ok, c') := by
  induction h with
  | ended c => rfl
  | down fetch _ _ _ ih | aside fetch _ _ _ ih =>
    simp only [List.length_cons, List.map_cons, Cpu.clocks, clock_of_fetch fetch, ih]

/-- **Each instruction that counts down has taken something, until the word is zero.** -/
theorem Counting.taken_or_zero (h : Counting c ops c') :
    c'.regs.word + ops.countP Opcode.countsDown ≤ c.regs.word ∨ c'.regs.word = 0 := by
  induction h with
  | ended c => exact .inl (Nat.le_refl _)
  | @down c c' op ops _ counts some _ ih =>
    rw [List.countP_cons_of_pos counts]
    by_cases zero : c.regs.word = 0
    · have rested := word_perform_zero counts zero
      omega
    · have less := word_perform_lt counts some zero
      omega
  | @aside c c' op ops _ counts kept _ ih =>
    have other : ¬ op.countsDown = true := Bool.not_eq_true _ ▸ counts
    rw [List.countP_cons_of_neg other]
    omega

/-- **The word R2:R1 is counted exactly, held at both ends and never wraps**, however often. A01
    adds R0 each time up to 65535. IRW fills R1 and then R2, so that the word never falls and is
    65535 from one time on. DRW and, unless R0 is zero, S01 make the word smaller each time until it
    is zero, and there it stays; DRW is there behind R1 + 2 * R2 times. And a loop on DRW and S01
    ends: as long as its word is not zero, it has counted down no more often than the word was. -/
theorem word_counted (c : Cpu M) :
    (∀ n, (c.performTimes .a01 n).regs.word = min (c.regs.word + n * c.regs.r0.toNat) 65535) ∧
    (∀ n,
      (c.performTimes .irw n).regs.r1.toNat = min (c.regs.r1.toNat + n) 255 ∧
      (c.performTimes .irw n).regs.r2.toNat =
        min (c.regs.r2.toNat + (n - (255 - c.regs.r1.toNat))) 255 ∧
      (c.performTimes .irw n).regs.word ≤ (c.performTimes .irw (n + 1)).regs.word ∧
      ((c.performTimes .irw n).regs.word = 65535 ↔
        255 - c.regs.r1.toNat + (255 - c.regs.r2.toNat) ≤ n)) ∧
    (RunsDown (fun n => (c.performTimes .drw n).regs.word) ∧
      ∀ n, (c.performTimes .drw n).regs.word = 0 ↔ c.regs.r1.toNat + 2 * c.regs.r2.toNat ≤ n) ∧
    (c.regs.r0 ≠ 0 →
      RunsDown (fun n => (c.performTimes .s01 n).regs.word) ∧
      ∀ n, c.regs.word ≤ n → (c.performTimes .s01 n).regs.word = 0) ∧
    (∀ ops c', Counting c ops c' →
      c.clocks ops.length = (ops.map .ok, c') ∧
      (c'.regs.word + ops.countP Opcode.countsDown ≤ c.regs.word ∨ c'.regs.word = 0)) := by
  have low := c.regs.r1.toNat_lt
  have high := c.regs.r2.toNat_lt
  refine ⟨c.word_adds, fun n => ?_, ⟨c.runsDown_drw, fun n => ?_⟩, fun some => ?_,
    fun ops c' loop => ⟨loop.clocks, loop.taken_or_zero⟩⟩
  · have r1 := c.r1_increments n
    have r2 := c.r2_increments n
    refine ⟨r1, r2, ?_, ?_⟩
    · have next1 := c.r1_increments (n + 1)
      have next2 := c.r2_increments (n + 1)
      unfold Registers.word
      omega
    · unfold Registers.word
      omega
  · have strokes := c.strokes_decrements n
    rw [← Nat.sub_eq_zero_iff_le]
    exact Sheet.strokes_eq_zero_iff.symm.trans (by rw [strokes])
  · exact ⟨runsDown_s01 some, fun n long => (runsDown_s01 some).reaches long⟩

/-- A loop of `S01`, `MAR $0100` and `JMP` with one in R0 and two in R1. -/
def looping : Cpu FlatMemory :=
  ⟨{ Registers.powerOn with r0 := 1, r1 := 2 }, 0,
    Memory.store (FlatMemory.filled 0) 0x0100 [0x08, 0x01, 0x00, 0x01, 0x11]⟩

theorem counting_looping :
    ∃ c', Counting looping [.s01, .mar, .jmp, .s01] c' := by
  refine ⟨_, .down (fetch_eq_ok_iff.mpr ?_) rfl (fun _ => ?_) <|
    .aside (fetch_eq_ok_iff.mpr ?_) rfl (Nat.le_refl _) <|
    .aside (fetch_eq_ok_iff.mpr ?_) rfl (Nat.le_refl _) <|
    .down (fetch_eq_ok_iff.mpr ?_) rfl (fun _ => ?_) <| .ended _⟩
  all_goals decide +kernel

/-- The second `S01` of the loop takes the last of its word, and so does the second one in a row. -/
theorem word_counted_looping :
    (∃ c', Counting looping [.s01, .mar, .jmp, .s01] c' ∧ c'.regs.word = 0) ∧
      looping.regs.r0 ≠ 0 ∧ (looping.performTimes .s01 2).regs.word = 0 := by
  obtain ⟨-, -, -, subtracts, loops⟩ := word_counted looping
  obtain ⟨c', loop⟩ := counting_looping
  have word : looping.regs.word = 2 := rfl
  refine ⟨⟨c', loop, ?_⟩, by decide, (subtracts (by decide)).2 2 (Nat.le_of_eq word)⟩
  have counted : [Opcode.s01, .mar, .jmp, .s01].countP Opcode.countsDown = 2 := rfl
  obtain ⟨-, taken⟩ := loops _ c' loop
  rw [counted, word] at taken
  omega

end Cpu
end Retro24
