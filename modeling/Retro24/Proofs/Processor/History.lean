/-
  File:      Retro24/Proofs/Processor/History.lean
  Subject:   What a run has made of every byte of memory.

  * `Cpu.Unstored`, `Cpu.LastStore`: nothing was stored at an address, or a cycle was the last one
    that did. `unstored_or_lastStore`: there is no third way.
  * `read_clocks_onward`: a byte behind cycles that do not store in it, by induction on their number.
  * `Cpu.History`: memory and counter behind a number of cycles that succeed, in these terms.
  * `Machine.Renews`: what a reset or a load leaves; both watchdogs are zero there.
  * `memory_history`: all of it together.

  The cycles are done one after the other, whether the processor is halted or not; a run that stops
  at a halt is a number of them (`clocks_of_run`).
-/
import Retro24.Proofs.Listings.Tracing
import Retro24.Proofs.Machine.Resets

namespace Retro24

open Memory (read write)

/-! ## 1. Cycles one after another -/

namespace Cpu

variable {M : Type} [Memory M] {c c' : Cpu M} {op : Opcode} {ops : List Opcode} {a : UInt16}
  {b : UInt8} {i k n : Nat}

/-- The last of them is done where the others have led. -/
theorem clocks_succ_snd (c : Cpu M) (n : Nat) :
    (c.clocks (n + 1)).2 = (c.clocks n).2.clock.2 := by
  induction n generalizing c with
  | zero => rfl
  | succ n ih => exact ih c.clock.2

/-- Behind a cycle that is done. -/
theorem clocks_succ_of_fetch (fetch : (c.clocks n).2.fetch = .ok op) :
    (c.clocks (n + 1)).2 = (c.clocks n).2.perform op := by
  rw [clocks_succ_snd, clock_of_fetch fetch]

theorem cycles_clocks (done : (c.clocks n).1 = ops.map .ok) (inside : k ≤ n) :
    (c.clocks k).2.cycles = c.cycles + UInt64.ofNat k := by
  induction k with
  | zero => exact (UInt64.add_zero c.cycles).symm
  | succ k ih =>
    obtain ⟨op, -, fetch⟩ := fetch_of_clocks done inside
    rw [clocks_succ_of_fetch fetch, cycles_perform, ih (Nat.le_of_lt inside), UInt64.ofNat_add,
      UInt64.add_assoc]
    rfl

/-- None of a number of cycles stores at an address. -/
def Unstored (c : Cpu M) (n : Nat) (a : UInt16) : Prop :=
  ∀ j, j < n → (c.clocks j).2.storedAt? a = none

/-- Of a number of cycles one is the last that stores at an address, and this is the byte that it
    leaves there. -/
structure LastStore (c : Cpu M) (n : Nat) (a : UInt16) (i : Nat) (b : UInt8) : Prop where
  inside : i < n
  stored : (c.clocks i).2.storedAt? a = some b
  last (j : Nat) : i < j → j < n → (c.clocks j).2.storedAt? a = none

/-- **Either no cycle stores at an address, or one of them is the last that does.** -/
theorem unstored_or_lastStore (c : Cpu M) (n : Nat) (a : UInt16) :
    c.Unstored n a ∨ ∃ i b, c.LastStore n a i b := by
  induction n with
  | zero => exact .inl fun j inside => absurd inside (Nat.not_lt_zero j)
  | succ n ih =>
    cases here : (c.clocks n).2.storedAt? a with
    | some b => exact .inr ⟨n, b, Nat.lt_succ_self n, here, fun j above below => by omega⟩
    | none =>
      -- the cycles in front of the last one decide
      have onward {j : Nat} (below : j < n + 1) (front : j < n → (c.clocks j).2.storedAt? a = none) :
          (c.clocks j).2.storedAt? a = none := by
        rcases Nat.lt_succ_iff_lt_or_eq.mp below with inside | rfl
        · exact front inside
        · exact here
      rcases ih with unstored | ⟨i, b, last⟩
      · exact .inl fun j below => onward below (unstored j)
      · exact .inr ⟨i, b, Nat.lt_succ_of_lt last.inside, last.stored, fun j above below =>
          onward below (last.last j above)⟩

variable [LawfulMemory M]

/-- **From one of the cycles on a byte moves with the watchdogs only**, as long as nothing is stored
    in it. -/
theorem read_clocks_onward (done : (c.clocks n).1 = ops.map .ok) (inside : i + k ≤ n)
    (unstored : ∀ j, i ≤ j → j < i + k → (c.clocks j).2.storedAt? a = none) :
    read (c.clocks (i + k)).2.memory a = drifted a k (read (c.clocks i).2.memory a) := by
  induction k with
  | zero => exact (drifted_zero a _).symm
  | succ k ih =>
    obtain ⟨op, -, fetch⟩ := fetch_of_clocks done (i := i + k) (by omega)
    have before := ih (by omega) fun j above below => unstored j above (by omega)
    rw [← Nat.add_assoc, clocks_succ_of_fetch fetch, read_perform_eq fetch,
      unstored (i + k) (by omega) (by omega), before, drifted_add]
    rfl

theorem Unstored.read (unstored : c.Unstored n a) (done : (c.clocks n).1 = ops.map .ok) :
    read (c.clocks n).2.memory a = drifted a n (read c.memory a) := by
  have whole : 0 + n = n := Nat.zero_add n
  have onward := read_clocks_onward (i := 0) (k := n) done (Nat.le_of_eq whole)
    fun j _ below => unstored j (by omega)
  rwa [whole] at onward

theorem LastStore.read (last : c.LastStore n a i b) (done : (c.clocks n).1 = ops.map .ok) :
    read (c.clocks n).2.memory a = drifted a (n - 1 - i) b := by
  have inside := last.inside
  have rest : i + 1 + (n - 1 - i) = n := by omega
  obtain ⟨op, -, fetch⟩ := fetch_of_clocks done inside
  have here : Memory.read (c.clocks (i + 1)).2.memory a = b := by
    rw [clocks_succ_of_fetch fetch, read_perform_eq fetch, last.stored]
    rfl
  have onward := read_clocks_onward done (Nat.le_of_eq rest)
    fun j above below => last.last j above (by omega)
  rwa [rest, here] at onward

/-! ## 2. The history of every byte -/

/-- Memory and counter behind a number of cycles. Apart from the watchdogs an address holds the byte
    that was stored there last, or the one from before; only three instructions store anything. The
    watchdogs have moved by one with every cycle since then, one up and one down. -/
structure History (c : Cpu M) (n : Nat) (c' : Cpu M) : Prop where
  byte (a : UInt16) : a ≠ tickAddress → a ≠ tockAddress →
    (c.Unstored n a ∧ read c'.memory a = read c.memory a) ∨
      ∃ i b, c.LastStore n a i b ∧ read c'.memory a = b
  others (i : Nat) (op : Opcode) : i < n → (c.clocks i).2.fetch = .ok op →
    op ≠ .sic → op ≠ .sr0 → op ≠ .srw →
    (c.clocks (i + 1)).2.memory = moveWatchdogs (c.clocks i).2.memory
  tick : c.Unstored n tickAddress →
    read c'.memory tickAddress = read c.memory tickAddress + UInt8.ofNat n
  tock : c.Unstored n tockAddress →
    read c'.memory tockAddress = read c.memory tockAddress - UInt8.ofNat n
  tickStored (i : Nat) (b : UInt8) : c.LastStore n tickAddress i b →
    read c'.memory tickAddress = b + UInt8.ofNat (n - 1 - i)
  tockStored (i : Nat) (b : UInt8) : c.LastStore n tockAddress i b →
    read c'.memory tockAddress = b - UInt8.ofNat (n - 1 - i)
  counter : c'.cycles = c.cycles + UInt64.ofNat n

theorem history_of_clocks (done : c.clocks n = (ops.map .ok, c')) : c.History n c' := by
  have all : (c.clocks n).1 = ops.map .ok := congrArg Prod.fst done
  have behind : c' = (c.clocks n).2 := (congrArg Prod.snd done).symm
  subst behind
  constructor
  case byte =>
    intro a tick tock
    rcases c.unstored_or_lastStore n a with unstored | ⟨i, b, last⟩
    · have kept := unstored.read all
      rw [drifted_of_ne tick tock] at kept
      exact .inl ⟨unstored, kept⟩
    · have kept := last.read all
      rw [drifted_of_ne tick tock] at kept
      exact .inr ⟨i, b, last, kept⟩
  case others =>
    intro i op inside fetch sic sr0 srw
    have nothing : op.writes (c.clocks i).2.regs = [] := by
      cases op
      case sic => exact absurd rfl sic
      case sr0 => exact absurd rfl sr0
      case srw => exact absurd rfl srw
      all_goals rfl
    rw [clocks_succ_of_fetch fetch, memory_perform, nothing]
    rfl
  case tick => exact fun unstored => (unstored.read all).trans (drifted_tick _ _)
  case tock => exact fun unstored => (unstored.read all).trans (drifted_tock _ _)
  case tickStored => exact fun i b last => (last.read all).trans (drifted_tick _ _)
  case tockStored => exact fun i b last => (last.read all).trans (drifted_tock _ _)
  case counter => exact cycles_clocks all (Nat.le_refl n)

/-- Both watchdogs are zero. -/
def Unwound (c : Cpu M) : Prop := read c.memory tickAddress = 0 ∧ read c.memory tockAddress = 0

/-- A watchdog that was zero and that nothing is stored in counts the cycles modulo 256, the first one
    up and the second one down. -/
structure Counted (c : Cpu M) (n : Nat) (c' : Cpu M) : Prop where
  up : c.Unstored n tickAddress → (read c'.memory tickAddress).toNat = n % 256
  down : c.Unstored n tockAddress → ((read c'.memory tockAddress).toNat : Int) = -(n : Int) % 256

omit [LawfulMemory M] in
theorem History.counted (h : c.History n c') (unwound : c.Unwound) : c.Counted n c' where
  up := by
    intro tick
    rw [h.tick tick, unwound.1, UInt8.zero_add, UInt8.toNat_ofNat']
  down := by
    intro tock
    rw [h.tock tock, unwound.2, UInt8.toNat_sub, UInt8.toNat_ofNat']
    show (((2 ^ 8 - n % 2 ^ 8 + 0) % 2 ^ 8 : Nat) : Int) = _
    omega

theorem unwound_reset (c : Cpu M) : c.reset.Unwound := by
  have apart : tickAddress ≠ tockAddress := by decide
  refine ⟨?_, LawfulMemory.read_write_self _ _ _⟩
  exact (LawfulMemory.read_write_of_ne _ _ apart).trans (LawfulMemory.read_write_self _ _ _)

/-! ## 3. From a reset or a load on -/

theorem Fresh.unwound {before : Bus} {bytes : List UInt8} {c : Cpu Bus}
    (h : Fresh before bytes c) : c.Unwound :=
  ⟨(h.io tickAddress (by decide)).trans (if_pos (.inl rfl)),
    (h.io tockAddress (by decide)).trans (if_pos (.inr rfl))⟩

end Cpu

namespace Machine

/-- The machine behind a reset or a load. -/
inductive Renews (m : Machine) : Machine → Prop where
  | soft : Renews m m.softReset
  | hard : Renews m m.hardReset
  | load {image : Program} {m' : Machine} (done : m.Loads image m') : Renews m m'

theorem Renews.unwound {m m' : Machine} (h : m.Renews m') (sound : m.Sound) : m'.cpu.Unwound := by
  cases h with
  | soft => exact m.fresh_softReset.unwound
  | hard =>
    have blank : powerOn.cpu.Unwound := ⟨by decide +kernel, by decide +kernel⟩
    rw [hardReset_cpu]
    exact blank
  | load done => exact (done.fresh sound).unwound

end Machine

/-! ## 4. Memory behind every run -/

/-- **Memory has a history.** Behind any number of cycles that succeed, from any state, every address
    but the two watchdogs holds the byte that was stored there last, or the one from before, and no
    other instruction than `SIC`, `SR0` and `SRW` changes memory at all. A watchdog has moved by one
    with each cycle since it was stored in; the counter has counted all of them. The same is true of
    a run that may stop at a halt. Behind a reset of the processor, and behind a reset of the machine
    or a load, the watchdogs therefore count the cycles, up and down, modulo 256. -/
theorem memory_history (M : Type) [Memory M] [LawfulMemory M] :
    (∀ (c c' : Cpu M) (n : Nat) (ops : List Opcode),
      c.clocks n = (ops.map .ok, c') → c.History n c') ∧
    (∀ (c c' : Cpu M) (budget n : Nat), c.run budget = (.ok n, c') → c.History n c') ∧
    (∀ (c c' : Cpu M) (n : Nat) (ops : List Opcode),
      c.reset.clocks n = (ops.map .ok, c') → c.reset.Counted n c') ∧
    ∀ m m' : Machine, m.Reachable → m.Renews m' → ∀ (c' : Cpu Bus) (n : Nat) (ops : List Opcode),
      m'.cpu.clocks n = (ops.map .ok, c') → m'.cpu.Counted n c' := by
  refine ⟨fun c c' n ops done => Cpu.history_of_clocks done, fun c c' budget n run => ?_,
    fun c c' n ops done => (Cpu.history_of_clocks done).counted c.unwound_reset,
    fun m m' reachable renewed c' n ops done => ?_⟩
  · obtain ⟨ops, done⟩ := Cpu.clocks_of_run run
    exact Cpu.history_of_clocks done
  · have unwound := renewed.unwound (Machine.sound_of_reachable reachable)
    exact (Cpu.history_of_clocks done).counted unwound

/-- An `SRW` that stores its second byte behind the last address, and a `NUL`. -/
def spillingOver : Cpu FlatMemory :=
  ⟨{ Registers.powerOn with ar := 0xFFFF, r1 := 7, r2 := 9 }, 0,
    (FlatMemory.filled 0).write startAddress 0x13⟩

/-- The second byte is found at $0000 behind the `NUL`. -/
theorem memory_history_spilling_over :
    ∃ c', spillingOver.clocks 2 = ([Opcode.srw, .nul].map .ok, c') ∧ read c'.memory 0x0000 = 9 := by
  have fetch : spillingOver.fetch = .ok .srw := Cpu.fetch_eq_ok_iff.mpr (by decide +kernel)
  have fetch' : (spillingOver.perform .srw).fetch = .ok .nul :=
    Cpu.fetch_eq_ok_iff.mpr (by decide +kernel)
  have done : spillingOver.clocks 2 = ([Opcode.srw, .nul].map .ok, (spillingOver.clocks 2).2) :=
    Prod.ext (Cpu.clocks_ok_cons_iff.mpr ⟨fetch, Cpu.clocks_ok_cons_iff.mpr ⟨fetch', rfl⟩⟩) rfl
  obtain ⟨history, -⟩ := memory_history FlatMemory
  refine ⟨_, done, ?_⟩
  have first : (spillingOver.clocks 0).2.storedAt? 0x0000 = some 9 := by decide +kernel
  have second : (spillingOver.clocks 1).2.storedAt? 0x0000 = none := by decide +kernel
  rcases (history _ _ _ _ done).byte 0x0000 (by decide) (by decide) with
    ⟨unstored, -⟩ | ⟨i, b, ⟨inside, stored, -⟩, kept⟩
  · cases first.symm.trans (unstored 0 (by decide))
  · match i, inside with
    | 0, _ =>
      cases stored.symm.trans first
      exact kept
    | 1, _ => cases stored.symm.trans second

end Retro24
